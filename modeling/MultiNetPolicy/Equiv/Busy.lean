import MultiNetPolicy.Equiv.History
import MultiNetPolicy.Equiv.Survival

/-!
# Batches that the kernel refuses

The kernel refuses to change the elements of a constant set that a rule looks up.  `updateSet`
changes a set that exists in place, whatever its flags.

`batch_spares_busy_iff`: the batch of a run leaves every such set alone exactly when each of them
that the input asks for is asked for with the keys it has.
-/

namespace MultiNetPolicy

open ByteString

/-- The message changes the elements of a set. -/
def Op.changesSet (t n : Str) : Op → Bool
  | .addElements t' n' _ => t' == t && n' == n
  | .deleteElements t' n' _ => t' == t && n' == n
  | _ => false

/-- A constant set that a committed rule looks up. -/
def Kernel.isBusy (k : Kernel) (t n : Str) : Bool :=
  (k.findSet t n).any NftSet.constant &&
    k.rules.any fun r => r.table == t && r.lookups.any fun x => x.1 == n

/-- Two lists of elements have the same keys. -/
def SameKeys (a b : List SetElement) : Prop :=
  (∀ x ∈ a, ∃ y ∈ b, y.key = x.key) ∧ ∀ y ∈ b, ∃ x ∈ a, x.key = y.key

instance (a b : List SetElement) : Decidable (SameKeys a b) :=
  inferInstanceAs (Decidable ((∀ x ∈ a, ∃ y ∈ b, y.key = x.key) ∧ ∀ y ∈ b, ∃ x ∈ a, x.key = y.key))

theorem SameKeys.symm {a b : List SetElement} (hab : SameKeys a b) : SameKeys b a :=
  ⟨hab.2, hab.1⟩

theorem SameKeys.trans {a b c : List SetElement} (hab : SameKeys a b) (hbc : SameKeys b c) :
    SameKeys a c := by
  refine ⟨fun x hx => ?_, fun z hz => ?_⟩
  · obtain ⟨y, hy, hyx⟩ := hab.1 x hx
    obtain ⟨z, hz, hzy⟩ := hbc.1 y hy
    exact ⟨z, hz, hzy.trans hyx⟩
  · obtain ⟨y, hy, hyz⟩ := hbc.2 z hz
    obtain ⟨x, hx, hxy⟩ := hab.2 y hy
    exact ⟨x, hx, hxy.trans hyz⟩

/-- Nothing is missing. -/
theorem findNonCommon_eq_nil_iff {a b : List SetElement} :
    findNonCommon a b = [] ↔ ∀ x ∈ a, ∃ y ∈ b, y.key = x.key := by
  unfold findNonCommon isPresent
  rw [List.filter_eq_nil_iff]
  refine forall₂_congr fun x _ => ?_
  rw [Bool.not_eq_true', Bool.not_eq_false, List.any_eq_true]
  refine exists_congr fun y => and_congr_right fun _ => ?_
  rw [beq_iff_eq]
  exact eq_comm

/-- A set is left alone when it has the wanted keys. -/
theorem updateElementOps_eq_nil_iff {s : NftSet} {els existing : List SetElement} :
    updateElementOps s els existing = [] ↔ SameKeys els existing := by
  have hops : ∀ {mk : List SetElement → Op} {els : List SetElement},
      Conn.elementOps mk els = [] ↔ els = [] := by
    intro mk els
    unfold Conn.elementOps
    split <;> simp_all
  unfold updateElementOps
  rw [List.append_eq_nil_iff, hops, hops, findNonCommon_eq_nil_iff, findNonCommon_eq_nil_iff]
  exact and_comm

/-! ### Which messages change a set -/

theorem changesSet_elementOps {mk : List SetElement → Op} {t n : Str} {els : List SetElement}
    (t' n' : Str) (hmk : ∀ els, (mk els).changesSet t n = (t' == t && n' == n)) :
    (∃ op ∈ Conn.elementOps mk els, op.changesSet t n = true) ↔
      (t' = t ∧ n' = n) ∧ els ≠ [] := by
  unfold Conn.elementOps
  split
  · rename_i hels
    simp [hels]
  · rename_i hels
    simp [hmk, hels]

/-- An update in place changes the set exactly when the keys differ. -/
theorem changesSet_updateElementOps {s : NftSet} {els existing : List SetElement} {t n : Str} :
    (∃ op ∈ updateElementOps s els existing, op.changesSet t n = true) ↔
      (s.table = t ∧ s.name = n) ∧ ¬ SameKeys els existing := by
  unfold updateElementOps
  simp only [List.mem_append, or_and_right, exists_or]
  rw [changesSet_elementOps s.table s.name fun _ => rfl,
    changesSet_elementOps s.table s.name fun _ => rfl, ← and_or_left]
  refine and_congr_right fun _ => ?_
  unfold SameKeys
  rw [Ne, Ne, findNonCommon_eq_nil_iff, findNonCommon_eq_nil_iff, ← not_and_or, and_comm]

theorem Kernel.hasSet_of_isBusy {k : Kernel} {t n : Str} (h : k.isBusy t n = true) :
    k.hasSet t n = true := by
  unfold isBusy at h
  rw [Bool.and_eq_true] at h
  obtain ⟨x, hx, -⟩ := (Option.any_eq_true _ _).1 h.1
  rw [Kernel.hasSet, hx]
  rfl

/-- What one call does to a busy set. -/
theorem Event.Queues.changesSet_iff {k : Kernel} {e : Event} {ops : List Op} (he : e.Queues k ops)
    {t n : Str} (hb : k.isBusy t n = true) :
    (∃ op ∈ ops, op.changesSet t n = true) ↔
      ∃ s els fresh, e = .set s els fresh ∧ (s.table = t ∧ s.name = n) ∧
        ¬ SameKeys els (k.getElements t n) := by
  cases e with
  | chain c =>
    rcases he with rfl | ⟨-, rfl⟩ <;> simp [Op.changesSet]
  | set s els fresh =>
    obtain ⟨hfresh, rfl⟩ := he
    cases fresh with
    | true =>
      -- a set that is not there is not busy
      have hne : ¬ (s.table = t ∧ s.name = n) := by
        rintro ⟨rfl, rfl⟩
        rw [Kernel.hasSet_of_isBusy hb] at hfresh
        cases hfresh
      have hadd : (Op.addSet s).changesSet t n = false := rfl
      simp only [if_true, List.mem_cons, exists_eq_or_imp, hadd, Bool.false_eq_true, false_or]
      rw [changesSet_elementOps s.table s.name fun _ => rfl]
      constructor
      · rintro ⟨h, -⟩
        exact absurd h hne
      · rintro ⟨s', els', fresh', heq, h, -⟩
        cases heq
        exact absurd h hne
    | false =>
      simp only [Bool.false_eq_true, if_false]
      rw [changesSet_updateElementOps]
      constructor
      · rintro ⟨⟨rfl, rfl⟩, hkeys⟩
        exact ⟨s, els, false, rfl, ⟨rfl, rfl⟩, hkeys⟩
      · rintro ⟨s', els', fresh', heq, ⟨rfl, rfl⟩, hkeys⟩
        cases heq
        exact ⟨⟨rfl, rfl⟩, hkeys⟩
  | rule r action force isNew =>
    have hquiet : ∀ op ∈ ops, op.changesSet t n = false := by
      intro op hop
      cases he.sends op hop with
      | rule => cases action <;> rfl
      | delRule => rfl
    constructor
    · rintro ⟨op, hop, h⟩
      rw [hquiet op hop] at h
      cases h
    · rintro ⟨s, els, fresh, heq, -⟩
      cases heq

/-- What the calls of an execution do to a busy set. -/
theorem Queued.changesSet_iff {k : Kernel} {t n : Str} (hb : k.isBusy t n = true) :
    ∀ {es : List Event} {ops : List Op}, Queued k es ops →
      ((∃ op ∈ ops, op.changesSet t n = true) ↔
        ∃ s els fresh, .set s els fresh ∈ es ∧ (s.table = t ∧ s.name = n) ∧
          ¬ SameKeys els (k.getElements t n))
  | [], ops, hq => by
    obtain ⟨_, ⟨⟩, rfl⟩ := hq
    simp
  | e :: es, ops, hq => by
    obtain ⟨ops₁, ops₂, he, hq', rfl⟩ := hq.cons_inv
    simp only [List.mem_append, or_and_right, exists_or]
    rw [he.changesSet_iff hb, Queued.changesSet_iff hb hq']
    simp only [List.mem_cons, or_and_right, exists_or, eq_comm]

/-! ### The batch of a run -/

theorem Op.changesSet_of_isPreamble {op : Op} (h : op.isPreamble = true) (t n : Str) :
    op.changesSet t n = false := by
  cases op with
  | addElements t' n' els => cases h
  | deleteElements t' n' els => cases h
  | _ => rfl

/-- **When a batch leaves busy sets alone.**  The ruleset is one that successful runs reach, the
input is any. -/
theorem batch_spares_busy_iff {bo : ByteOrder} {k : Kernel} {last : Option Input}
    (hk : Runs bo (fun _ _ _ _ => True) k last) {h : Host} {i : Input} {s : State}
    (hs : queueRules h i (State.new k) = .ok () s) :
    (∀ t n, k.isBusy t n = true → ∀ op ∈ s.messages, op.changesSet t n = false) ↔
      ∀ x ∈ i.requestedSets h.byteOrder, k.isBusy x.1.table x.1.name = true →
        SameKeys x.2 (k.getElements x.1.table x.1.name) := by
  obtain ⟨es, hb⟩ := queueRules_ok hk.wf hs
  obtain ⟨preamble, ops, hpre, hq, hm⟩ := hb.messages
  -- the messages in front are deletions in other tables
  have hmessages : ∀ t n, (∃ op ∈ s.messages, op.changesSet t n = true) ↔
      ∃ op ∈ ops, op.changesSet t n = true := by
    intro t n
    rw [hm]
    constructor
    · rintro ⟨op, hop, hc⟩
      rcases List.mem_append.1 hop with hop | hop
      · rw [Op.changesSet_of_isPreamble (hpre op hop)] at hc
        cases hc
      · exact ⟨op, hop, hc⟩
    · rintro ⟨op, hop, hc⟩
      exact ⟨op, List.mem_append_right _ hop, hc⟩
  constructor
  · rintro hspared ⟨x, els⟩ hx hbusy
    obtain ⟨x₀, fresh, he, rfl⟩ := (mem_requestedSets hb.exec).1 hx
    by_contra hkeys
    obtain ⟨op, hop, hc⟩ := (hmessages _ _).2 ((hq.changesSet_iff hbusy).2
      ⟨x₀, els, fresh, he, ⟨rfl, rfl⟩, hkeys⟩)
    rw [hspared _ _ hbusy op hop] at hc
    cases hc
  · intro hsame t n hbusy op hop
    by_contra hc
    rw [Bool.not_eq_false] at hc
    obtain ⟨x₀, els, fresh, he, ⟨rfl, rfl⟩, hkeys⟩ :=
      (hq.changesSet_iff hbusy).1 ((hmessages _ _).1 ⟨op, hop, hc⟩)
    exact hkeys (hsame _ ((mem_requestedSets hb.exec).2 ⟨x₀, fresh, he, rfl⟩) hbusy)

/-- A policy that lets one TCP port in. -/
def portInput (port : Int) : Input :=
  podInput [str "net1"] (onePolicy (ingressPolicy (str "web") isDNS1123Subdomain_web (str "net1")
    [⟨[⟨some .tcp, some (.int port), none⟩], []⟩]))

/-- The end of a batch that could be queued. -/
def queuedState (h : Host) (i : Input) (k : Kernel) : Option State :=
  match queueRules h i (State.new k) with
  | .ok _ s => some s
  | .error _ _ => none

theorem queuedState_eq_some {h : Host} {i : Input} {k : Kernel} {s : State}
    (hs : queuedState h i k = some s) : queueRules h i (State.new k) = .ok () s := by
  unfold queuedState at hs
  split at hs
  · rename_i heq
    obtain rfl := Option.some.inj hs
    exact heq
  · cases hs

set_option maxRecDepth 100000 in
/-- A third run with the same port: the set of ports is constant and looked up, and the input asks
for the keys that it has. -/
theorem same_port_spares_busy : ∃ k last, Runs .little (fun _ _ _ _ => True) k last ∧
    ∃ s, queueRules Host.reliable (portInput 80) (State.new k) = .ok () s ∧
    (∃ x ∈ (portInput 80).requestedSets .little, k.isBusy x.1.table x.1.name = true) ∧
    ∀ t n, k.isBusy t n = true → ∀ op ∈ s.messages, op.changesSet t n = false := by
  have hrun : (outcome Host.reliable (portInput 80) Kernel.empty).any (fun s₁ =>
      (outcome Host.reliable (portInput 80) s₁.kernel).any fun s₂ =>
        (queuedState Host.reliable (portInput 80) s₂.kernel).isSome &&
        decide ((∃ x ∈ (portInput 80).requestedSets .little,
            s₂.kernel.isBusy x.1.table x.1.name = true) ∧
          ∀ x ∈ (portInput 80).requestedSets .little,
            s₂.kernel.isBusy x.1.table x.1.name = true →
              SameKeys x.2 (s₂.kernel.getElements x.1.table x.1.name))) = true := by
    decide +kernel
  obtain ⟨s₁, hs₁, hrun⟩ := (Option.any_eq_true _ _).1 hrun
  obtain ⟨s₂, hs₂, hrun⟩ := (Option.any_eq_true _ _).1 hrun
  rw [Bool.and_eq_true, Option.isSome_iff_exists] at hrun
  obtain ⟨⟨s₃, hs₃⟩, hbusy⟩ := hrun
  obtain ⟨hbusy, hsame⟩ := of_decide_eq_true hbusy
  rw [outcome_eq_some] at hs₁ hs₂
  have hruns : Runs .little (fun _ _ _ _ => True) s₂.kernel (some (portInput 80)) :=
    .run (.run (.start .empty .empty) rfl hs₁ trivial) rfl hs₂ trivial
  exact ⟨s₂.kernel, _, hruns, s₃, queuedState_eq_some hs₃, hbusy,
    (batch_spares_busy_iff hruns (queuedState_eq_some hs₃)).2 hsame⟩

set_option maxRecDepth 100000 in
/-- The port of a policy changes from 80 to 443 after two runs: the batch changes the set of ports,
which is constant and looked up. -/
theorem port_edit_changes_busy_set : ∃ k last, Runs .little (fun _ _ _ _ => True) k last ∧
    ∃ s, queueRules Host.reliable (portInput 443) (State.new k) = .ok () s ∧
    ∃ x ∈ (portInput 443).requestedSets .little, k.isBusy x.1.table x.1.name = true ∧
      ∃ op ∈ s.messages, op.changesSet x.1.table x.1.name = true := by
  have hrun : (outcome Host.reliable (portInput 80) Kernel.empty).any (fun s₁ =>
      (outcome Host.reliable (portInput 80) s₁.kernel).any fun s₂ =>
        (queuedState Host.reliable (portInput 443) s₂.kernel).any fun s₃ =>
          decide (∃ x ∈ (portInput 443).requestedSets .little,
            s₂.kernel.isBusy x.1.table x.1.name = true ∧
              ∃ op ∈ s₃.messages, op.changesSet x.1.table x.1.name = true)) = true := by
    decide +kernel
  obtain ⟨s₁, hs₁, hrun⟩ := (Option.any_eq_true _ _).1 hrun
  obtain ⟨s₂, hs₂, hrun⟩ := (Option.any_eq_true _ _).1 hrun
  obtain ⟨s₃, hs₃, hrun⟩ := (Option.any_eq_true _ _).1 hrun
  rw [outcome_eq_some] at hs₁ hs₂
  have hruns : Runs .little (fun _ _ _ _ => True) s₂.kernel (some (portInput 80)) :=
    .run (.run (.start .empty .empty) rfl hs₁ trivial) rfl hs₂ trivial
  exact ⟨s₂.kernel, _, hruns, s₃, queuedState_eq_some hs₃, of_decide_eq_true hrun⟩

end MultiNetPolicy
