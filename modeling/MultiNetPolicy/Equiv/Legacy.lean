import MultiNetPolicy.Equiv.Cleanup
import MultiNetPolicy.Server.Legacy

/-!
# The legacy cleanup stays in the legacy tables

`cleanupLegacyTables` queues and commits deletions in the tables `filter` and `nat` only, so it
leaves every other table as it was (`cleanupLegacyTables_keeps`), and when it succeeds nothing stays
queued (`cleanupLegacyTables_drained`).
-/

namespace MultiNetPolicy

open ByteString StateExcept

/-! ### Agreement outside some tables -/

/-- Two rulesets agree on everything outside the tables `ts`. -/
structure Kernel.AgreeOutside (ts : List Str) (k k' : Kernel) : Prop where
  rules : (k'.rules.filter fun r => !ts.contains r.table) =
    k.rules.filter fun r => !ts.contains r.table
  chains : (k'.chains.filter fun c => !ts.contains c.table) =
    k.chains.filter fun c => !ts.contains c.table
  sets : (k'.sets.filter fun s => !ts.contains s.table) =
    k.sets.filter fun s => !ts.contains s.table
  elements : (k'.elements.filter fun e => !ts.contains e.table) =
    k.elements.filter fun e => !ts.contains e.table

/-- The table of a message. -/
def Op.table : Op → Str
  | .addTable t => t
  | .addChain c => c.table
  | .delChain t _ => t
  | .addRule r => r.table
  | .insertRule r => r.table
  | .delRule t _ _ => t
  | .addSet x => x.table
  | .addElements t _ _ => t
  | .deleteElements t _ _ => t
  | .delSet t _ => t

/-- The message deletes something in the tables `ts`. -/
def Op.deletesIn (ts : List Str) : Op → Bool
  | .delRule t _ _ => ts.contains t
  | .delChain t _ => ts.contains t
  | .delSet t _ => ts.contains t
  | _ => false

/-- A deletion in some tables is about one of them. -/
theorem Op.contains_table {ts : List Str} {op : Op} (h : op.deletesIn ts = true) :
    ts.contains op.table = true := by
  cases op <;> first | exact h | cases h

/-- Dropping entries of the tables `ts` is not seen outside of them. -/
theorem filter_outside {α : Type} {ts : List Str} {t : Str} (ht : ts.contains t = true)
    {table : α → Str} {p : α → Bool} (hp : ∀ x, p x = false → table x = t) (l : List α) :
    (l.filter p).filter (fun x => !ts.contains (table x)) =
      l.filter fun x => !ts.contains (table x) := by
  rw [List.filter_filter]
  refine List.filter_congr fun x _ => ?_
  cases hx : p x with
  | true => simp
  | false => rw [hp x hx, ht]; rfl

/-- Nor are new ones. -/
theorem filter_outside_append {α : Type} {ts : List Str} (table : α → Str) (l : List α) {x : α}
    (hx : ts.contains (table x) = true) :
    (l ++ [x]).filter (fun y => !ts.contains (table y)) =
      l.filter fun y => !ts.contains (table y) := by
  rw [List.filter_append, List.filter_cons_of_neg (by simpa using hx), List.filter_nil,
    List.append_nil]

namespace Kernel.AgreeOutside

variable {ts : List Str} {k k' : Kernel}

theorem refl (ts : List Str) (k : Kernel) : AgreeOutside ts k k := ⟨rfl, rfl, rfl, rfl⟩

theorem symm (ha : AgreeOutside ts k k') : AgreeOutside ts k' k :=
  ⟨ha.rules.symm, ha.chains.symm, ha.sets.symm, ha.elements.symm⟩

/-- A message is not seen outside of its table. -/
theorem apply (ha : AgreeOutside ts k k') {op : Op} (hop : ts.contains op.table = true) :
    AgreeOutside ts k (k'.apply op) := by
  cases op with
  | addTable t =>
    rw [Kernel.apply]
    split
    · exact ha
    · exact ⟨ha.rules, ha.chains, ha.sets, ha.elements⟩
  | addChain c =>
    rw [Kernel.apply]
    split
    · exact ha
    · exact ⟨ha.rules, (filter_outside_append Chain.table _ hop).trans ha.chains, ha.sets,
        ha.elements⟩
  | addRule r =>
    have hr : ts.contains ({ r with handle := k'.nextHandle } : Rule).table = true := hop
    exact ⟨(filter_outside_append Rule.table _ hr).trans ha.rules, ha.chains, ha.sets, ha.elements⟩
  | insertRule r =>
    refine ⟨?_, ha.chains, ha.sets, ha.elements⟩
    change ts.contains r.table = true at hop
    rw [Kernel.apply, List.filter_cons_of_neg (by simpa using hop)]
    exact ha.rules
  | addSet x =>
    rw [Kernel.apply]
    split
    · exact ha
    · exact ⟨ha.rules, ha.chains, (filter_outside_append NftSet.table _ hop).trans ha.sets,
        ha.elements⟩
  | addElements t n els =>
    refine ⟨ha.rules, ha.chains, ha.sets, Eq.trans ?_ ha.elements⟩
    change ts.contains t = true at hop
    rw [Kernel.apply]
    generalize k'.elements = stored
    -- element by element: those that are there are not added twice
    induction els generalizing stored with
    | nil => rfl
    | cons x xs ih =>
      rw [List.foldl_cons, ih, Kernel.addElement]
      split
      · rfl
      · exact filter_outside_append StoredElement.table stored hop
  | deleteElements t n els =>
    refine ⟨ha.rules, ha.chains, ha.sets, Eq.trans (filter_outside hop ?_ _) ha.elements⟩
    intro x hx
    simp only [StoredElement.inSet, Bool.not_eq_false', Bool.and_eq_true, beq_iff_eq] at hx
    exact hx.1.1
  | delRule t c n =>
    refine ⟨Eq.trans (filter_outside hop ?_ _) ha.rules, ha.chains, ha.sets, ha.elements⟩
    intro r hr
    simp only [Rule.inChain, Bool.not_eq_false', Bool.and_eq_true, beq_iff_eq] at hr
    exact hr.1.1
  | delChain t c =>
    refine ⟨Eq.trans (filter_outside hop ?_ _) ha.rules,
      Eq.trans (filter_outside hop ?_ _) ha.chains, ha.sets, ha.elements⟩
    · intro r hr
      simp only [Rule.inChain, Bool.not_eq_false', Bool.and_eq_true, beq_iff_eq] at hr
      exact hr.1
    · intro x hx
      simp only [Bool.not_eq_false', Bool.and_eq_true, beq_iff_eq] at hx
      exact hx.1
  | delSet t s =>
    refine ⟨ha.rules, ha.chains, Eq.trans (filter_outside hop ?_ _) ha.sets,
      Eq.trans (filter_outside hop ?_ _) ha.elements⟩
    · intro x hx
      simp only [Bool.not_eq_false', Bool.and_eq_true, beq_iff_eq] at hx
      exact hx.1
    · intro x hx
      simp only [StoredElement.inSet, Bool.not_eq_false', Bool.and_eq_true, beq_iff_eq] at hx
      exact hx.1

/-- **Batches for some tables are not seen in the others.** -/
theorem commit : ∀ {ops : List Op} {k' : Kernel}, AgreeOutside ts k k' →
    (∀ op ∈ ops, ts.contains op.table = true) → AgreeOutside ts k (k'.commit ops)
  | [], _, ha, _ => ha
  | op :: _, _, ha, h =>
    (ha.apply (h op (List.mem_cons_self ..))).commit fun o ho => h o (List.mem_cons_of_mem _ ho)

/-- A selection of entries of another table sees the same. -/
theorem filter_eq {α : Type} {table : α → Str} {l l' : List α}
    (h : (l'.filter fun x => !ts.contains (table x)) = l.filter fun x => !ts.contains (table x))
    {t : Str} (ht : ts.contains t = false) {p : α → Bool} (hp : ∀ x, p x = true → table x = t) :
    l'.filter p = l.filter p := by
  have hsel : ∀ m : List α, m.filter p = (m.filter fun x => !ts.contains (table x)).filter p := by
    intro m
    rw [List.filter_filter]
    refine List.filter_congr fun x _ => ?_
    cases hx : p x with
    | false => rfl
    | true => rw [hp x hx, ht]; rfl
  rw [hsel l', hsel l, h]

/-- An object outside the tables is in both rulesets. -/
theorem mem {α : Type} {table : α → Str} {l l' : List α}
    (ha : (l'.filter fun x => !ts.contains (table x)) = l.filter fun x => !ts.contains (table x))
    {x : α} (hx : x ∈ l') (ht : ts.contains (table x) = false) : x ∈ l := by
  have hin : x ∈ l.filter fun x => !ts.contains (table x) := by
    rw [← ha]
    exact List.mem_filter.2 ⟨hx, by rw [ht]; rfl⟩
  exact List.mem_of_mem_filter hin

theorem getRules (ha : AgreeOutside ts k k') {t : Str} (ht : ts.contains t = false) (c : Str) :
    k'.getRules t c = k.getRules t c := by
  unfold Kernel.getRules
  rw [filter_eq ha.rules ht fun r hr => (Rule.inChain_iff.1 hr).1]

/-- The rules of a chain outside. -/
theorem chainRules (ha : AgreeOutside ts k k') {t : Str} (ht : ts.contains t = false) (c : Str) :
    k'.chainRules t c = k.chainRules t c := by
  unfold Kernel.chainRules
  rw [ha.getRules ht]

/-- The elements of a set outside. -/
theorem getElements (ha : AgreeOutside ts k k') {t : Str} (ht : ts.contains t = false) (s : Str) :
    k'.getElements t s = k.getElements t s := by
  unfold Kernel.getElements
  rw [filter_eq ha.elements ht]
  intro x hx
  simp only [StoredElement.inSet, Bool.and_eq_true, beq_iff_eq] at hx
  exact hx.1

/-- A set outside. -/
theorem findSet (ha : AgreeOutside ts k k') {t : Str} (ht : ts.contains t = false) (s : Str) :
    k'.findSet t s = k.findSet t s := by
  unfold Kernel.findSet
  rw [← List.head?_filter, ← List.head?_filter, filter_eq ha.sets ht]
  intro x hx
  simp only [Bool.and_eq_true, beq_iff_eq] at hx
  exact hx.1

theorem hasSet (ha : AgreeOutside ts k k') {t : Str} (ht : ts.contains t = false) (s : Str) :
    k'.hasSet t s = k.hasSet t s := by
  unfold Kernel.hasSet
  rw [ha.findSet ht]

/-- A rule outside. -/
theorem findRule (ha : AgreeOutside ts k k') {r : Rule} (ht : ts.contains r.table = false) :
    k'.findRule r = k.findRule r := by
  unfold Kernel.findRule
  rw [ha.getRules ht]

end Kernel.AgreeOutside

/-! ### The legacy cleanup -/

/-- What holds while the legacy tables are cleaned up. -/
structure LegacyInv (k : Kernel) (s : State) : Prop where
  messages : ∀ op ∈ s.messages, op.deletesIn legacyNames = true
  agree : k.AgreeOutside legacyNames s.kernel
  wf : s.kernel.WF
  rules : s.rules = []
  sets : s.sets = []
  chains : s.chains = []
  requested : s.requested = []

/-- A listing request is not noticed by an invariant of the rest of the state. -/
theorem keeps_query {I : State → Prop} (hI : ∀ s, I s → I { s with queries := s.queries + 1 })
    {h : Host} {α : Type} (f : Kernel → α) :
    Keeps I (Conn.query h f) fun a => ∃ k', a = f k' :=
  triple_query fun s hs => ⟨fun _ => ⟨hI s hs, s.kernel, rfl⟩, fun _ => hI s hs⟩

/-- Looking for references changes nothing but the number of listings. -/
theorem keeps_anyRuleReferences {I : State → Prop}
    (hI : ∀ s, I s → I { s with queries := s.queries + 1 }) {h : Host} (t c : Str) :
    ∀ chains : List Chain, Keeps I (anyRuleReferences h t c chains) fun _ => True
  | [] => Keeps.pure trivial
  | x :: xs => by
    rw [anyRuleReferences]
    refine Keeps.ite (fun _ => ?_) fun _ => keeps_anyRuleReferences hI t c xs
    refine Keeps.bind (keeps_wrapErr (keeps_query hI _) _) fun _ _ => ?_
    exact Keeps.ite (fun _ => Keeps.pure trivial) fun _ => keeps_anyRuleReferences hI t c xs

theorem keeps_legacyChainReferenced {I : State → Prop}
    (hI : ∀ s, I s → I { s with queries := s.queries + 1 }) {h : Host} (t c : Str) :
    Keeps I (legacyChainReferenced h t c) fun _ => True :=
  Keeps.bind (keeps_wrapErr (keeps_query hI _) _) fun chains _ =>
    keeps_anyRuleReferences hI t c chains

/-- An invariant of the steps of the legacy cleanup: asking, queueing a deletion in a legacy table,
and a batch that is committed or refused. -/
structure LegacyStable (I : State → Prop) : Prop where
  query : ∀ s, I s → I { s with queries := s.queries + 1 }
  queue : ∀ s, I s → ∀ op : Op, op.deletesIn legacyNames = true →
    I { s with messages := s.messages ++ [op] }
  commit : ∀ s, I s → s.kernel.admits s.messages = true →
    I { s with kernel := s.kernel.commit s.messages, messages := [] }
  refuse : ∀ s, I s → I { s with messages := [] }

section LegacyStable

variable {I : State → Prop} (hI : LegacyStable I) {h : Host}
include hI

theorem keeps_getRules (t c : Str) :
    Keeps I (Conn.getRules h t c) fun rules => ∀ r ∈ rules, r.table = t := by
  refine (keeps_query hI.query _).weaken ?_
  rintro _ ⟨k', rfl⟩ r hr
  obtain ⟨x, hx, rfl⟩ := List.mem_map.1 hr
  exact (Rule.inChain_iff.1 (List.mem_filter.1 hx).2).1

theorem keeps_queue {op : Op} (hop : op.deletesIn legacyNames = true) :
    Keeps I (Conn.queue [op]) fun _ => True :=
  Keeps.modify fun s hs => hI.queue s hs op hop

theorem keeps_flush : Keeps I (Conn.flush h) fun _ => True :=
  triple_flush fun s hs => ⟨fun hadm _ => ⟨hI.commit s hs hadm, trivial⟩, fun _ => hI.refuse s hs⟩

theorem keeps_flush_if (b : Bool) (c : Str) :
    Keeps I (if b = true then wrapErr c (Conn.flush h) else pure ()) fun _ => True :=
  Keeps.ite (fun _ => keeps_wrapErr (keeps_flush hI) c) fun _ => Keeps.pure trivial

/-- The rules that are deleted are those of a legacy table. -/
theorem keeps_deleteRulesWhere (p : Rule → Except Panic Bool) {t : Str}
    (ht : legacyNames.contains t = true) {rules : List Rule} (hrules : ∀ r ∈ rules, r.table = t) :
    Keeps I (deleteRulesWhere p rules) fun _ => True := by
  refine Keeps.foldlM (fun b r hr => ?_) _
  have hread : Keeps I (orPanic (p r)) fun _ => True :=
    triple_orPanic (fun _ _ _ hs => ⟨hs, trivial⟩) fun _ _ _ hs => hs
  refine Keeps.bind hread fun own _ => Keeps.ite (fun _ => ?_) fun _ => Keeps.pure trivial
  exact Keeps.bind (keeps_queue hI (by rw [← hrules r hr] at ht; exact ht)) fun _ _ =>
    Keeps.pure trivial

theorem keeps_cleanupLegacyBaseChain {t : Str} (ht : legacyNames.contains t = true) (c : Chain) :
    Keeps I (cleanupLegacyBaseChain h t c) fun _ => True := by
  refine Keeps.ite (fun _ => ?_) fun _ => Keeps.pure trivial
  refine Keeps.bind (keeps_wrapErr (keeps_getRules hI t c.name) _) fun rules hrules => ?_
  exact Keeps.bind (keeps_deleteRulesWhere hI _ ht hrules) fun b _ => keeps_flush_if hI b _

theorem keeps_cleanupLegacyDaemonChainRules {t : Str} (ht : legacyNames.contains t = true)
    (c : Chain) :
    Keeps I (cleanupLegacyDaemonChainRules h t c) fun _ => True := by
  refine Keeps.bind (keeps_wrapErr (keeps_getRules hI t c.name) _) fun rules hrules => ?_
  refine Keeps.bind (keeps_deleteRulesWhere hI _ ht hrules) fun b _ => ?_
  refine Keeps.ite (fun _ => ?_) fun _ => Keeps.pure trivial
  refine Keeps.bind (keeps_wrapErr (keeps_flush hI) _) fun _ _ => ?_
  exact Keeps.bind (keeps_wrapErr (keeps_getRules hI t c.name) _) fun _ _ => Keeps.pure trivial

theorem keeps_cleanupLegacyDaemonChain {t : Str} (ht : legacyNames.contains t = true) (b : Bool)
    (c : Chain) : Keeps I (cleanupLegacyDaemonChain h t b c) fun _ => True := by
  refine Keeps.ite (fun hc => ?_) fun _ => Keeps.pure trivial
  refine Keeps.bind (keeps_cleanupLegacyDaemonChainRules hI ht c) fun rest _ => ?_
  refine Keeps.bind (keeps_legacyChainReferenced hI.query t c.name) fun referenced _ => ?_
  refine Keeps.ite (fun _ => Keeps.pure trivial) fun _ => ?_
  refine Keeps.ite (fun _ => Keeps.pure trivial) fun _ => ?_
  exact Keeps.bind (keeps_queue hI (by rw [← hc.1] at ht; exact ht)) fun _ _ => Keeps.pure trivial

/-- The cleanup of one table. -/
theorem keeps_cleanupLegacyTable (t : Str) :
    Keeps I (cleanupLegacyTable h t) fun _ => True := by
  refine Keeps.ite (fun ht => ?_) fun _ => Keeps.pure trivial
  refine Keeps.bind (keeps_wrapErr (keeps_query hI.query _) _) fun chains _ => ?_
  refine Keeps.bind (Keeps.forM fun c _ => keeps_cleanupLegacyBaseChain hI ht c) fun _ _ => ?_
  refine Keeps.bind (Keeps.foldlM (fun b c _ => keeps_cleanupLegacyDaemonChain hI ht b c) _)
    fun b _ => ?_
  refine Keeps.bind (keeps_wrapErr (keeps_query hI.query _) _) fun sets hsets => ?_
  have htable : ∀ s ∈ sets, s.table = t := by
    obtain ⟨k', rfl⟩ := hsets
    intro s hs
    simpa using (List.mem_filter.1 hs).2
  refine Keeps.bind (Keeps.foldlM (fun b s hs => ?_) _) fun b _ => keeps_flush_if hI b _
  refine Keeps.ite (fun _ => ?_) fun _ => Keeps.pure trivial
  exact Keeps.bind (keeps_queue hI (by rw [← htable s hs] at ht; exact ht)) fun _ _ =>
    Keeps.pure trivial

/-- **The legacy cleanup keeps what its steps keep.** -/
theorem keeps_cleanupLegacyTables : Keeps I (cleanupLegacyTables h) fun _ => True :=
  Keeps.bind (keeps_wrapErr (keeps_query hI.query _) _) fun _ _ =>
    Keeps.forM fun t _ => keeps_cleanupLegacyTable hI t

end LegacyStable

section LegacyInv

variable {k : Kernel} {h : Host}

/-- The invariant of the legacy cleanup is kept by each of its calls. -/
theorem legacyStable_inv : LegacyStable (LegacyInv k) where
  query _ hs := ⟨hs.messages, hs.agree, hs.wf, hs.rules, hs.sets, hs.chains, hs.requested⟩
  queue s hs op hop := by
    refine ⟨fun o ho => ?_, hs.agree, hs.wf, hs.rules, hs.sets, hs.chains, hs.requested⟩
    rcases List.mem_append.1 ho with ho | ho
    · exact hs.messages o ho
    · obtain rfl := List.mem_singleton.1 ho
      exact hop
  commit s hs hadm := by
    have hagree := hs.agree.commit fun op hop => Op.contains_table (hs.messages op hop)
    exact ⟨by simp, hagree, hs.wf.commit hadm, hs.rules, hs.sets, hs.chains, hs.requested⟩
  refuse _ hs := ⟨by simp, hs.agree, hs.wf, hs.rules, hs.sets, hs.chains, hs.requested⟩

/-- **The legacy cleanup leaves every table but the legacy ones alone.** -/
theorem cleanupLegacyTables_keeps :
    Keeps (LegacyInv k) (cleanupLegacyTables h) fun _ => True :=
  keeps_cleanupLegacyTables legacyStable_inv

/-- A table stays. -/
theorem Kernel.mem_tables_of_mem {t : Str} : ∀ {ops : List Op} {k : Kernel}, t ∈ k.tables →
    t ∈ (k.commit ops).tables
  | [], _, ht => ht
  | op :: ops, k, ht => by
    rw [commit_cons]
    refine mem_tables_of_mem ?_
    cases op with
    | addTable t' =>
      rw [Kernel.apply]
      split
      · exact ht
      · exact List.mem_append_left _ ht
    | addChain c =>
      rw [Kernel.apply]
      split <;> exact ht
    | addSet x =>
      rw [Kernel.apply]
      split <;> exact ht
    | _ => exact ht

/-- A table that a batch adds is there behind it. -/
theorem Kernel.mem_tables_of_addTable {t : Str} : ∀ {ops : List Op} {k : Kernel},
    .addTable t ∈ ops → t ∈ (k.commit ops).tables
  | op :: ops, k, hop => by
    rw [commit_cons]
    rcases List.mem_cons.1 hop with rfl | hop
    · refine mem_tables_of_mem ?_
      rw [Kernel.apply]
      split
      · rename_i ht
        exact List.contains_iff_mem.1 ht
      · exact List.mem_append_right _ (List.mem_singleton_self t)
    · exact mem_tables_of_addTable hop

/-- Tables stay. -/
theorem cleanupLegacyTables_tables {t : Str} :
    Keeps (fun s => t ∈ s.kernel.tables) (cleanupLegacyTables h) fun _ => True := by
  have hI : LegacyStable fun s => t ∈ s.kernel.tables :=
    ⟨fun _ hs => hs, fun _ hs _ _ => hs, fun _ hs _ => Kernel.mem_tables_of_mem hs, fun _ hs => hs⟩
  exact keeps_cleanupLegacyTables hI

end LegacyInv

/-! ### Nothing stays queued -/

/-- The comment of a rule can be read and is one of the daemon's. -/
def recognised (p : Rule → Except Panic Bool) (r : Rule) : Bool := (p r).toOption.getD false

/-- The messages of `deleteRulesWhere`, when it can read all comments. -/
theorem deleteRulesWhere_apply {p : Rule → Except Panic Bool} {rules : List Rule}
    (hread : ∀ r ∈ rules, ∃ own, p r = .ok own) (s : State) :
    deleteRulesWhere p rules s = .ok (rules.any (recognised p)) { s with
      messages := s.messages ++
        (rules.filter (recognised p)).map fun r => .delRule r.table r.chain r.handle } := by
  -- the loop, from any state and with any flag
  have hloop : ∀ (rules : List Rule) (b : Bool) (s : State), (∀ r ∈ rules, ∃ own, p r = .ok own) →
      rules.foldlM (fun deleted rule => (do
        let own ← orPanic (p rule)
        if own then
          Conn.delRule rule
          return true
        else return deleted : M Bool)) b s = .ok (b || rules.any (recognised p)) { s with
        messages := s.messages ++
          (rules.filter (recognised p)).map fun r => .delRule r.table r.chain r.handle } := by
    intro rules
    induction rules with
    | nil =>
      intro b s _
      rw [List.filter_nil, List.map_nil, List.append_nil, List.any_nil, Bool.or_false]
      rfl
    | cons r rs ih =>
      intro b s hread
      obtain ⟨own, hown⟩ := hread r (List.mem_cons_self ..)
      have hrs : ∀ r ∈ rs, ∃ own, p r = .ok own := fun x hx => hread x (List.mem_cons_of_mem _ hx)
      have hrec : recognised p r = own := by
        rw [recognised, hown]
        rfl
      rw [List.foldlM_cons, bind_apply, List.any_cons, List.filter_cons, hown, hrec]
      cases own with
      | false =>
        rw [Bool.false_or]
        exact ih b s hrs
      | true =>
        rw [Bool.true_or, Bool.or_true]
        refine (ih true { s with messages := s.messages ++ [.delRule r.table r.chain r.handle] }
          hrs).trans ?_
        simp
  unfold deleteRulesWhere
  rw [hloop rules false s hread, Bool.false_or]

/-- A comment that cannot be read stops `deleteRulesWhere` before anything is committed. -/
theorem deleteRulesWhere_unreadable {p : Rule → Except Panic Bool} {rules : List Rule}
    (hread : ¬ ∀ r ∈ rules, ∃ own, p r = .ok own) (s : State) :
    ∃ s', deleteRulesWhere p rules s = .error .panicked s' ∧ s'.kernel = s.kernel := by
  -- rules in front of the unreadable one are only queued
  have hloop : ∀ (rules : List Rule) (b : Bool) (s : State),
      (¬ ∀ r ∈ rules, ∃ own, p r = .ok own) → ∃ s', rules.foldlM (fun deleted rule => (do
        let own ← orPanic (p rule)
        if own then
          Conn.delRule rule
          return true
        else return deleted : M Bool)) b s = .error .panicked s' ∧ s'.kernel = s.kernel := by
    intro rules
    induction rules with
    | nil =>
      intro b s hread
      exact absurd (fun r hr => by cases hr) hread
    | cons r rs ih =>
      intro b s hread
      rw [List.foldlM_cons, bind_apply]
      cases hp : p r with
      | error e => exact ⟨s, rfl, rfl⟩
      | ok own =>
        have hrs : ¬ ∀ r ∈ rs, ∃ own, p r = .ok own := by
          intro hrs
          refine hread fun x hx => ?_
          rcases List.mem_cons.1 hx with rfl | hx
          · exact ⟨own, hp⟩
          · exact hrs x hx
        cases own with
        | false => exact ih b s hrs
        | true =>
          exact ih true { s with messages := s.messages ++ [.delRule r.table r.chain r.handle] } hrs
  exact hloop rules false s hread

section Drained

variable {h : Host}

/-- The queue is empty, unless the flag says that a flush is due. -/
def Drained (b : Bool) (s : State) : Prop := b = false → s.messages = []

theorem Drained.query {b : Bool} (s : State) (hs : Drained b s) :
    Drained b { s with queries := s.queries + 1 } := hs

/-- Behind a flush nothing is queued. -/
theorem triple_flush_drained {P : State → Prop} (b : Bool) :
    Triple P (Conn.flush h) (fun _ => Drained b) fun _ => True :=
  triple_flush fun _ _ => ⟨fun _ _ _ => rfl, fun _ => trivial⟩

theorem triple_query_drained {α : Type} (b : Bool) (f : Kernel → α) :
    Triple (Drained b) (Conn.query h f) (fun _ => Drained b) fun _ => True :=
  triple_query fun _ hs => ⟨fun _ => hs, fun _ => trivial⟩

/-- Without a deletion the queue is as before. -/
theorem triple_deleteRulesWhere_drained (b : Bool) (p : Rule → Except Panic Bool)
    (rules : List Rule) :
    Triple (Drained b) (deleteRulesWhere p rules) (fun d s => d = false → Drained b s)
      fun _ => True := by
  intro s hs
  by_cases hread : ∀ r ∈ rules, ∃ own, p r = .ok own
  · rw [deleteRulesWhere_apply hread]
    intro hnone hb
    have hfilter : rules.filter (recognised p) = [] :=
      List.filter_eq_nil_iff.2 fun r hr => List.any_eq_false.1 hnone r hr
    change s.messages ++ (rules.filter (recognised p)).map _ = []
    rw [hfilter, hs hb]
    rfl
  · obtain ⟨s', hs', -⟩ := deleteRulesWhere_unreadable hread s
    rw [hs']
    trivial

theorem triple_cleanupLegacyBaseChain_drained (t : Str) (c : Chain) :
    Triple (Drained false) (cleanupLegacyBaseChain h t c) (fun _ => Drained false)
      fun _ => True := by
  refine Triple.ite (fun _ => ?_) fun _ => Triple.pure fun _ hs => hs
  refine Triple.bind (triple_wrapErr (triple_query_drained false _) _) fun rules => ?_
  refine Triple.bind (triple_deleteRulesWhere_drained false _ _) fun d => ?_
  exact Triple.ite (fun _ => triple_wrapErr (triple_flush_drained false) _) fun hd =>
    Triple.pure fun s hs => hs (Bool.eq_false_iff.2 hd)

theorem triple_cleanupLegacyDaemonChain_drained (t : Str) (b : Bool) (c : Chain) :
    Triple (Drained b) (cleanupLegacyDaemonChain h t b c) Drained fun _ => True := by
  refine Triple.ite (fun _ => ?_) fun _ => Triple.pure fun _ hs => hs
  have hrules : Triple (Drained b) (cleanupLegacyDaemonChainRules h t c) (fun _ => Drained b)
      fun _ => True := by
    refine Triple.bind (triple_wrapErr (triple_query_drained b _) _) fun rules => ?_
    refine Triple.bind (triple_deleteRulesWhere_drained b _ _) fun d => ?_
    refine Triple.ite (fun _ => ?_) fun hd => Triple.pure fun s hs => hs (Bool.eq_false_iff.2 hd)
    refine Triple.bind (triple_wrapErr (triple_flush_drained b) _) fun _ => ?_
    exact Triple.bind (triple_wrapErr (triple_query_drained b _) _) fun _ =>
      Triple.pure fun _ hs => hs
  refine Triple.bind hrules fun remaining => ?_
  -- looking for references queues nothing
  have href : Triple (Drained b) (legacyChainReferenced h t c.name) (fun _ => Drained b)
      fun _ => True := by
    intro s hs
    have hkeeps := keeps_legacyChainReferenced (h := h) (Drained.query (b := b)) t c.name s hs
    cases hx : legacyChainReferenced h t c.name s with
    | ok a s' =>
      rw [hx] at hkeeps
      exact hkeeps.1
    | error e s' => trivial
  refine Triple.bind href fun referenced => ?_
  refine Triple.ite (fun _ => Triple.pure fun _ hs => hs) fun _ => ?_
  refine Triple.ite (fun _ => Triple.pure fun _ hs => hs) fun _ => ?_
  exact Triple.bind (Q := fun _ _ => True) (Triple.modify fun _ _ => trivial) fun _ =>
    Triple.pure fun _ _ hb => by cases hb

/-- A table ends with a flush when something was queued. -/
theorem triple_cleanupLegacyTable_drained (t : Str) :
    Triple (Drained false) (cleanupLegacyTable h t) (fun _ => Drained false) fun _ => True := by
  refine Triple.ite (fun _ => ?_) fun _ => Triple.pure fun _ hs => hs
  refine Triple.bind (triple_wrapErr (triple_query_drained false _) _) fun chains => ?_
  refine Triple.bind (Triple.forM (I := fun _ => Drained false) fun _ c _ =>
    triple_cleanupLegacyBaseChain_drained t c) fun _ => ?_
  refine Triple.bind (Triple.foldlM (I := fun _ => Drained) (fun _ c _ b =>
    triple_cleanupLegacyDaemonChain_drained t b c) false) fun b => ?_
  refine Triple.bind (triple_wrapErr (triple_query_drained b _) _) fun sets => ?_
  refine Triple.bind (Triple.foldlM (I := fun _ => Drained) (fun _ x _ b => ?_) b) fun b' => ?_
  · refine Triple.ite (fun _ => ?_) fun _ => Triple.pure fun _ hs => hs
    exact Triple.bind (Q := fun _ _ => True) (Triple.modify fun _ _ => trivial) fun _ =>
      Triple.pure fun _ _ hb => by cases hb
  · exact Triple.ite (fun _ => triple_wrapErr (triple_flush_drained false) _) fun hb =>
      Triple.pure fun s hs _ => hs (Bool.eq_false_iff.2 hb)

/-- **A successful legacy cleanup leaves the queue empty.** -/
theorem cleanupLegacyTables_drained {k : Kernel} {s : State}
    (hs : cleanupLegacyTables h (State.new k) = .ok () s) : s.messages = [] := by
  have hrun : Triple (Drained false) (cleanupLegacyTables h) (fun _ => Drained false)
      fun _ => True :=
    Triple.bind (triple_wrapErr (triple_query_drained false _) _) fun tables =>
      Triple.forM (I := fun _ => Drained false) fun _ t _ => triple_cleanupLegacyTable_drained t
  exact hrun.of_ok (fun _ => rfl) hs rfl

end Drained

end MultiNetPolicy
