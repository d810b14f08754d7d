import MultiNetPolicy.Equiv.Legacy
import MultiNetPolicy.Equiv.Sound

/-!
# What the legacy cleanup spares

`cleanupLegacyTables` deletes what it recognises as the daemon's (`isLegacy`) and nothing else, at
whatever point it stops.  The argument is one invariant (`LegacyRun`): the committed ruleset is the
one of the start without some legacy objects, and every queued message may be committed without
doing harm (`Op.Lawful`), now and after any further deletions.

* `LegacyKernel.commit`: a batch of such messages.
* `cleanupLegacyTables_spec`: the whole cleanup, with what is known when it fails.
* `foreign_objects_spared`: what remains of the ruleset, in either case.
* `legacy_cleanup_succeeds_iff`: when the kernel accepts all of its batches and every comment can be
  read.
-/

namespace MultiNetPolicy

open ByteString StateExcept

/-! ### Ownership -/

/-- A rule of the legacy tables that the cleanup takes for the daemon's. -/
def Rule.isLegacy (r : Rule) : Bool :=
  legacyNames.contains r.table &&
    ((legacyDaemonBaseChainNames.contains r.chain && recognised legacyDaemonRule r) ||
      (legacyDaemonChainNames.contains r.chain && recognised legacyDaemonChainRule r))

/-- A rule of the legacy tables whose comment the cleanup looks at. -/
def Rule.isRead (r : Rule) : Bool :=
  legacyNames.contains r.table &&
    (legacyDaemonBaseChainNames.contains r.chain || legacyDaemonChainNames.contains r.chain)

theorem isOk_map {α β : Type} (f : α → β) (x : Except Panic α) : (x.map f).isOk = x.isOk := by
  cases x <;> rfl

/-- A rule is recognised when its comment can be read. -/
theorem isOk_legacyDaemonRule (r : Rule) :
    (legacyDaemonRule r).isOk = (getComment r.userData).isOk := isOk_map _ _

theorem isOk_legacyDaemonChainRule (r : Rule) :
    (legacyDaemonChainRule r).isOk = (getComment r.userData).isOk := isOk_map _ _

/-- A rule is recognised when the test says so without a panic. -/
theorem recognised_eq_true {p : Rule → Except Panic Bool} {r : Rule} :
    recognised p r = true ↔ p r = .ok true := by
  unfold recognised
  cases hp : p r with
  | ok own => cases own <;> simp [Except.toOption]
  | error e => simp [Except.toOption]

/-- A rule whose comment cannot be read is not taken for the daemon's. -/
theorem Rule.isOk_of_isLegacy {r : Rule} (h : r.isLegacy = true) :
    (getComment r.userData).isOk = true := by
  rw [isLegacy, Bool.and_eq_true, Bool.or_eq_true, Bool.and_eq_true, Bool.and_eq_true,
    recognised_eq_true, recognised_eq_true] at h
  rcases h.2 with ⟨-, h⟩ | ⟨-, h⟩
  · rw [← isOk_legacyDaemonRule, h]
    rfl
  · rw [← isOk_legacyDaemonChainRule, h]
    rfl

/-- A chain of the legacy tables that the cleanup takes for the daemon's. -/
def Chain.isLegacy (c : Chain) : Bool :=
  legacyNames.contains c.table && legacyDaemonChainNames.contains c.name

/-- A set of the legacy tables that the cleanup takes for the daemon's. -/
def NftSet.isLegacy (x : NftSet) : Bool := legacyNames.contains x.table && legacyDaemonSet x

/-- A rule looks up a set of its table. -/
def Rule.looksUp (r : Rule) (name : Str) : Bool := r.lookups.any fun x => x.1 == name

/-- What `k'` has of `k`: everything but some legacy objects, in the same order, and no chain is
gone that a remaining rule is in or jumps to. -/
structure Spared (k k' : Kernel) : Prop where
  tables : k'.tables = k.tables
  rules : ∃ p : Rule → Bool, k'.rules = k.rules.filter p ∧
    ∀ r ∈ k.rules, r.isLegacy = false → p r = true
  chains : ∃ p : Chain → Bool, k'.chains = k.chains.filter p ∧
    ∀ c ∈ k.chains, c.isLegacy = false → p c = true
  sets : ∃ p : NftSet → Bool, k'.sets = k.sets.filter p ∧
    ∀ x ∈ k.sets, x.isLegacy = false → p x = true
  elements : ∃ p : StoredElement → Bool, k'.elements = k.elements.filter p ∧
    ∀ e ∈ k.elements, (∀ x ∈ k.sets, x.table = e.table → x.name = e.set → x.isLegacy = false) →
      p e = true
  held : ∀ c ∈ k.chains, c ∉ k'.chains →
    (∀ r ∈ k'.rules, r.inChain c.table c.name = false) ∧
      ∀ r ∈ k'.rules, r.table = c.table → ruleReferencesChain r c.name = false

/-! ### Objects in use -/

/-- The message deletes a chain that holds rules or that a rule jumps to, or a set that a rule looks
up. -/
def Kernel.inUse (k : Kernel) : Op → Bool
  | .delChain t c => k.rules.any (fun r => r.inChain t c) ||
      k.rules.any fun r => r.table == t && ruleReferencesChain r c
  | .delSet t n => k.rules.any fun r => r.table == t && r.looksUp n
  | _ => false

/-- No message of a batch deletes something that is in use when its turn comes. -/
def Kernel.sparesUsed : Kernel → List Op → Bool
  | _, [] => true
  | k, op :: ops => !k.inUse op && sparesUsed (k.apply op) ops

/-- Listings do not fail, and the kernel refuses a batch exactly when it deletes something in
use. -/
structure Host.Strict (h : Host) : Prop where
  lists : ∀ n, h.fault n = false
  accepts : ∀ k ops, h.accepts k ops = k.sparesUsed ops

/-- Only legacy rules look up a set. -/
def SetFree (k : Kernel) (x : NftSet) : Prop :=
  ∀ r ∈ k.rules, r.table = x.table → r.isLegacy = false → r.looksUp x.name = false

/-- Only legacy rules look up the legacy sets. -/
def LegacySetsFree (k : Kernel) : Prop :=
  ∀ x ∈ k.sets, x.table ∈ k.tables → x.isLegacy = true → SetFree k x

/-- The comments that the cleanup looks at are attributes that end within the user data, as far as
it reads them. -/
def LegacyReadable (k : Kernel) : Prop :=
  ∀ r ∈ k.rules, r.table ∈ k.tables → r.isRead = true → (getComment r.userData).isOk = true

/-! ### Messages that do no harm -/

/-- The message deletes legacy objects only, chains only when they are not in use, and sets only
when the legacy rules of their table are gone. -/
def Op.Lawful (k₀ k : Kernel) : Op → Prop
  | .delRule t c n => ∀ r ∈ k.rules, r.inChain t c = true → r.handle = n → r.isLegacy = true
  | .delChain t c => (legacyNames.contains t = true ∧ legacyDaemonChainNames.contains c = true) ∧
      (∀ r ∈ k.rules, r.inChain t c = false) ∧
      ∀ r ∈ k.rules, r.table = t → ruleReferencesChain r c = false
  | .delSet t n => (∀ x ∈ k.sets, x.table = t → x.name = n → x.isLegacy = true) ∧
      (∃ x ∈ k₀.sets, x.table ∈ k₀.tables ∧ x.isLegacy = true ∧ x.table = t ∧ x.name = n) ∧
      ∀ r ∈ k.rules, r.table = t → r.isLegacy = false
  | _ => False

/-- Deletions only. -/
structure Kernel.Shrinks (k k' : Kernel) : Prop where
  rules : ∀ r ∈ k'.rules, r ∈ k.rules
  sets : ∀ x ∈ k'.sets, x ∈ k.sets

/-- What may be deleted may still be deleted later. -/
theorem Op.Lawful.shrinks {k₀ k k' : Kernel} (hk : k.Shrinks k') {op : Op} (h : op.Lawful k₀ k) :
    op.Lawful k₀ k' := by
  cases op with
  | delRule t c n => exact fun r hr => h r (hk.rules r hr)
  | delChain t c =>
    exact ⟨h.1, fun r hr => h.2.1 r (hk.rules r hr), fun r hr => h.2.2 r (hk.rules r hr)⟩
  | delSet t n =>
    exact ⟨fun x hx => h.1 x (hk.sets x hx), h.2.1, fun r hr => h.2.2 r (hk.rules r hr)⟩
  | addTable t => exact h
  | addChain c => exact h
  | addRule r => exact h
  | insertRule r => exact h
  | addSet x => exact h
  | addElements t n els => exact h
  | deleteElements t n els => exact h

/-- Nothing is added. -/
theorem Op.Lawful.isDelete {k₀ k : Kernel} {op : Op} (h : op.Lawful k₀ k) : op.isDelete = true := by
  cases op <;> first | rfl | exact absurd h id

/-- Deletions only take away. -/
theorem Kernel.shrinks_apply {op : Op} (hop : op.isDelete = true) (k : Kernel) :
    k.Shrinks (k.apply op) := by
  cases op with
  | delRule t c n => exact ⟨fun r hr => List.mem_of_mem_filter hr, fun x hx => hx⟩
  | delChain t c => exact ⟨fun r hr => List.mem_of_mem_filter hr, fun x hx => hx⟩
  | delSet t n => exact ⟨fun r hr => hr, fun x hx => List.mem_of_mem_filter hx⟩
  | addTable t => cases hop
  | addChain c => cases hop
  | addRule r => cases hop
  | insertRule r => cases hop
  | addSet x => cases hop
  | addElements t n els => cases hop
  | deleteElements t n els => cases hop

/-- What is known of the committed ruleset during the cleanup. -/
structure LegacyKernel (h : Host) (k₀ k : Kernel) : Prop where
  wf : k.WF
  spared : Spared k₀ k
  freed : h.Strict → ∀ x ∈ k₀.sets, x ∉ k.sets → SetFree k₀ x

/-- A foreign rule of the start is still there. -/
theorem Spared.mem_rules {k k' : Kernel} (h : Spared k k') {r : Rule} (hr : r ∈ k.rules)
    (hforeign : r.isLegacy = false) : r ∈ k'.rules := by
  obtain ⟨p, hp, hkeep⟩ := h.rules
  rw [hp]
  exact List.mem_filter.2 ⟨hr, hkeep r hr hforeign⟩

theorem Spared.mem_of_mem_rules {k k' : Kernel} (h : Spared k k') {r : Rule} (hr : r ∈ k'.rules) :
    r ∈ k.rules := by
  obtain ⟨p, hp, -⟩ := h.rules
  rw [hp] at hr
  exact List.mem_of_mem_filter hr

/-! ### Committing them -/

section Commit

variable {h : Host} {k₀ k : Kernel}

/-- Filtering a list that was filtered before, where neither filter drops what is to be kept. -/
theorem exists_filter_filter {α : Type} {l₀ l : List α} {keep : α → Prop} {q : α → Bool}
    (hl : ∃ p : α → Bool, l = l₀.filter p ∧ ∀ x ∈ l₀, keep x → p x = true)
    (hq : ∀ x ∈ l, keep x → q x = true) :
    ∃ p : α → Bool, l.filter q = l₀.filter p ∧ ∀ x ∈ l₀, keep x → p x = true := by
  obtain ⟨p, rfl, hp⟩ := hl
  refine ⟨fun x => q x && p x, List.filter_filter, fun x hx hkeep => ?_⟩
  have hpx := hp x hx hkeep
  simp only [hpx, hq x (List.mem_filter.2 ⟨hx, hpx⟩) hkeep, Bool.and_self]

/-- Deleting a rule of the daemon. -/
theorem Spared.delRule (hs : Spared k₀ k) {t c : Str} {n : Nat}
    (hop : (Op.delRule t c n).Lawful k₀ k) : Spared k₀ (k.apply (.delRule t c n)) := by
  refine ⟨hs.tables, exists_filter_filter hs.rules fun r hr hforeign => ?_, hs.chains, hs.sets,
    hs.elements, fun x hx hgone => ?_⟩
  · rw [Bool.not_eq_true', Bool.and_eq_false_iff]
    by_contra hboth
    rw [not_or, Bool.not_eq_false, Bool.not_eq_false, beq_iff_eq] at hboth
    rw [hop r hr hboth.1 hboth.2] at hforeign
    cases hforeign
  · obtain ⟨hin, href⟩ := hs.held x hx hgone
    exact ⟨fun r hr => hin r (List.mem_of_mem_filter hr),
      fun r hr => href r (List.mem_of_mem_filter hr)⟩

/-- An object that a filter by table and name drops has this table and name. -/
theorem eq_of_filter_dropped {α : Type} {table name : α → Str} {t n : Str} {l : List α} {x : α}
    (hx : x ∈ l) (hgone : x ∉ l.filter fun x => !(table x == t && name x == n)) :
    table x = t ∧ name x = n := by
  rw [List.mem_filter, not_and, Bool.not_eq_true', Bool.not_eq_false, Bool.and_eq_true, beq_iff_eq,
    beq_iff_eq] at hgone
  exact hgone hx

/-- Deleting a chain of the daemon that is empty and not referred to. -/
theorem Spared.delChain (hs : Spared k₀ k) {t c : Str} (hop : (Op.delChain t c).Lawful k₀ k) :
    Spared k₀ (k.apply (.delChain t c)) := by
  obtain ⟨⟨ht, hc⟩, hempty, hrefs⟩ := hop
  -- the chain has no rules that would go with it
  have hrules : (k.apply (.delChain t c)).rules = k.rules := by
    refine List.filter_eq_self.2 fun r hr => ?_
    rw [hempty r hr]
    rfl
  refine ⟨hs.tables, ?_, exists_filter_filter hs.chains fun x hx hforeign => ?_, hs.sets,
    hs.elements, fun x hx hgone => ?_⟩
  · rw [hrules]
    exact hs.rules
  · rw [Bool.not_eq_true', Bool.and_eq_false_iff]
    by_contra hboth
    rw [not_or, Bool.not_eq_false, Bool.not_eq_false, beq_iff_eq, beq_iff_eq] at hboth
    rw [Chain.isLegacy, hboth.1, hboth.2, ht, hc] at hforeign
    cases hforeign
  · rw [hrules]
    by_cases hold : x ∈ k.chains
    · obtain ⟨hxt, hxn⟩ := eq_of_filter_dropped hold hgone
      rw [hxt, hxn]
      exact ⟨hempty, hrefs⟩
    · exact hs.held x hx hold

/-- Deleting a set of the daemon. -/
theorem Spared.delSet (hs : Spared k₀ k) {t n : Str} (hop : (Op.delSet t n).Lawful k₀ k) :
    Spared k₀ (k.apply (.delSet t n)) := by
  obtain ⟨howned, ⟨x₀, hx₀, -, hleg₀, ht₀, hn₀⟩, -⟩ := hop
  refine ⟨hs.tables, hs.rules, hs.chains, exists_filter_filter hs.sets fun x hx hforeign => ?_,
    exists_filter_filter hs.elements fun e _ he => ?_, hs.held⟩
  · rw [Bool.not_eq_true', Bool.and_eq_false_iff]
    by_contra hboth
    rw [not_or, Bool.not_eq_false, Bool.not_eq_false, beq_iff_eq, beq_iff_eq] at hboth
    rw [howned x hx hboth.1 hboth.2] at hforeign
    cases hforeign
  · rw [Bool.not_eq_true', StoredElement.inSet, Bool.and_eq_false_iff]
    by_contra hboth
    rw [not_or, Bool.not_eq_false, Bool.not_eq_false, beq_iff_eq, beq_iff_eq] at hboth
    rw [he x₀ hx₀ (ht₀.trans hboth.1.symm) (hn₀.trans hboth.2.symm)] at hleg₀
    cases hleg₀

/-- One message of the cleanup. -/
theorem LegacyKernel.apply (hk : LegacyKernel h k₀ k) {op : Op} (hop : op.Lawful k₀ k)
    (huse : h.Strict → k.inUse op = false) : LegacyKernel h k₀ (k.apply op) := by
  cases op with
  | delRule t c n => exact ⟨hk.wf.apply rfl, hk.spared.delRule hop, hk.freed⟩
  | delChain t c => exact ⟨hk.wf.apply rfl, hk.spared.delChain hop, hk.freed⟩
  | delSet t n =>
    refine ⟨hk.wf.apply rfl, hk.spared.delSet hop, fun hstrict x hx hgone => ?_⟩
    by_cases hold : x ∈ k.sets
    · obtain ⟨hxt, hxn⟩ := eq_of_filter_dropped hold hgone
      intro r hr ht hforeign
      have hnot := List.any_eq_false.1 (huse hstrict) r (hk.spared.mem_rules hr hforeign)
      rw [Bool.and_eq_true, beq_iff_eq, not_and, Bool.not_eq_true] at hnot
      rw [hxn]
      exact hnot (ht.trans hxt)
    · exact hk.freed hstrict x hx hold
  | addTable t => exact hop.elim
  | addChain c => exact hop.elim
  | addRule r => exact hop.elim
  | insertRule r => exact hop.elim
  | addSet x => exact hop.elim
  | addElements t n els => exact hop.elim
  | deleteElements t n els => exact hop.elim

/-- **A batch of lawful messages.** -/
theorem LegacyKernel.commit : ∀ {ops : List Op} {k : Kernel}, LegacyKernel h k₀ k →
    (∀ op ∈ ops, op.Lawful k₀ k) → (h.Strict → k.sparesUsed ops = true) →
    LegacyKernel h k₀ (k.commit ops)
  | [], _, hk, _, _ => hk
  | op :: ops, k, hk, hops, huse => by
    have hop := hops op (List.mem_cons_self ..)
    have hsplit : h.Strict → k.inUse op = false ∧ (k.apply op).sparesUsed ops = true := by
      intro hstrict
      have hu := huse hstrict
      rw [Kernel.sparesUsed, Bool.and_eq_true, Bool.not_eq_true'] at hu
      exact hu
    rw [Kernel.commit_cons]
    exact commit (hk.apply hop fun hstrict => (hsplit hstrict).1)
      (fun o ho => (hops o (List.mem_cons_of_mem _ ho)).shrinks (k.shrinks_apply hop.isDelete))
      fun hstrict => (hsplit hstrict).2

/-- When the legacy sets are free, no lawful message deletes something in use. -/
theorem Op.Lawful.not_inUse (hs : Spared k₀ k) (hfree : LegacySetsFree k₀) {op : Op}
    (hop : op.Lawful k₀ k) : k.inUse op = false := by
  cases op with
  | delChain t c =>
    obtain ⟨-, hempty, hrefs⟩ := hop
    rw [Kernel.inUse, Bool.or_eq_false_iff, List.any_eq_false, List.any_eq_false]
    refine ⟨fun r hr => ?_, fun r hr => ?_⟩
    · rw [hempty r hr]
      exact Bool.false_ne_true
    · rw [Bool.and_eq_true, beq_iff_eq, not_and, Bool.not_eq_true]
      exact hrefs r hr
  | delSet t n =>
    obtain ⟨-, ⟨x, hx, htab, hleg, rfl, rfl⟩, hrules⟩ := hop
    rw [Kernel.inUse, List.any_eq_false]
    intro r hr
    rw [Bool.and_eq_true, beq_iff_eq, not_and, Bool.not_eq_true]
    intro ht
    exact hfree x hx htab hleg r (hs.mem_of_mem_rules hr) ht (hrules r hr ht)
  | delRule t c n => rfl
  | addTable t => rfl
  | addChain c => rfl
  | addRule r => rfl
  | insertRule r => rfl
  | addSet x => rfl
  | addElements t n els => rfl
  | deleteElements t n els => rfl

/-- Where no foreign rule looks up a set of the daemon, nothing in use is deleted. -/
theorem LegacyKernel.sparesUsed (hfree : LegacySetsFree k₀) : ∀ {ops : List Op} {k : Kernel},
    LegacyKernel h k₀ k → (∀ op ∈ ops, op.Lawful k₀ k) → k.sparesUsed ops = true
  | [], _, _, _ => rfl
  | op :: ops, k, hk, hops => by
    have hop := hops op (List.mem_cons_self ..)
    have hnot := hop.not_inUse hk.spared hfree
    rw [Kernel.sparesUsed, hnot]
    exact sparesUsed hfree (hk.apply hop fun _ => hnot) fun o ho =>
      (hops o (List.mem_cons_of_mem _ ho)).shrinks (k.shrinks_apply hop.isDelete)

theorem Kernel.admits_of_isDelete : ∀ {ops : List Op}, (∀ op ∈ ops, op.isDelete = true) →
    ∀ k : Kernel, k.admits ops = true
  | [], _, _ => rfl
  | op :: ops, h, k => by
    have hlegal : k.legal op = true := by
      have hop := h op (List.mem_cons_self ..)
      cases op <;> first | rfl | cases hop
    rw [Kernel.admits, hlegal, Bool.true_and]
    exact admits_of_isDelete (fun o ho => h o (List.mem_cons_of_mem _ ho)) _

end Commit

/-! ### The cleanup -/

/-- What holds during the cleanup, with facts `F` about the committed ruleset. -/
structure LegacyRun (h : Host) (k₀ : Kernel) (F : Kernel → Prop) (s : State) : Prop where
  kernel : LegacyKernel h k₀ s.kernel
  messages : ∀ op ∈ s.messages, op.Lawful k₀ s.kernel
  facts : F s.kernel

/-- What holds when the cleanup fails. -/
structure LegacyFailed (h : Host) (k₀ : Kernel) (s : State) : Prop where
  spared : Spared k₀ s.kernel
  blocked : h.Strict → LegacySetsFree k₀ → ¬ LegacyReadable k₀

/-- Facts that deletions keep. -/
def ShrinkClosed (F : Kernel → Prop) : Prop := ∀ ⦃k k' : Kernel⦄, k.Shrinks k' → F k → F k'

theorem ShrinkClosed.and {F G : Kernel → Prop} (hF : ShrinkClosed F) (hG : ShrinkClosed G) :
    ShrinkClosed fun k => F k ∧ G k := fun _ _ hk h => ⟨hF hk h.1, hG hk h.2⟩

/-- A batch of deletions only takes away. -/
theorem Kernel.shrinks_commit : ∀ {ops : List Op}, (∀ op ∈ ops, op.isDelete = true) →
    ∀ k : Kernel, k.Shrinks (k.commit ops)
  | [], _, _ => ⟨fun _ h => h, fun _ h => h⟩
  | op :: ops, h, k => by
    have h₁ := k.shrinks_apply (h op (List.mem_cons_self ..))
    have h₂ := shrinks_commit (fun o ho => h o (List.mem_cons_of_mem _ ho)) (k.apply op)
    exact ⟨fun r hr => h₁.rules r (h₂.rules r hr), fun x hx => h₁.sets x (h₂.sets x hx)⟩

section Run

variable {h : Host} {k₀ : Kernel} {F : Kernel → Prop}

/-- A listing request. -/
theorem triple_legacyQuery {α : Type} (f : Kernel → α) :
    Triple (LegacyRun h k₀ F) (Conn.query h f)
      (fun a s => LegacyRun h k₀ F s ∧ a = f s.kernel) (LegacyFailed h k₀) := by
  refine triple_query fun s hs => ⟨fun _ => ⟨⟨hs.kernel, hs.messages, hs.facts⟩, rfl⟩,
    fun hfault => ?_⟩
  refine ⟨hs.kernel.spared, fun hstrict => ?_⟩
  rw [hstrict.lists] at hfault
  cases hfault

theorem LegacyRun.mono {s : State} {G : Kernel → Prop} (hs : LegacyRun h k₀ F s)
    (hG : F s.kernel → G s.kernel) : LegacyRun h k₀ G s := ⟨hs.kernel, hs.messages, hG hs.facts⟩

/-- A flush, and what is known of the ruleset behind it. -/
theorem triple_legacyFlush {P : State → Prop} {G : Kernel → Prop} (hF : ShrinkClosed F)
    (hP : ∀ s, P s → LegacyRun h k₀ F s ∧ G (s.kernel.commit s.messages)) :
    Triple P (Conn.flush h) (fun _ s => LegacyRun h k₀ (fun k => F k ∧ G k) s ∧ s.messages = [])
      (LegacyFailed h k₀) := by
  refine triple_flush fun s hs => ?_
  obtain ⟨hrun, hG⟩ := hP s hs
  have hdel : ∀ op ∈ s.messages, op.isDelete = true := fun op hop => (hrun.messages op hop).isDelete
  refine ⟨fun _ hacc => ?_, fun hrefused => ?_⟩
  · have huse : h.Strict → s.kernel.sparesUsed s.messages = true := by
      intro hstrict
      rcases hacc with hm | hacc
      · rw [hm]
        rfl
      · rw [← hstrict.accepts]
        exact hacc
    exact ⟨⟨hrun.kernel.commit hrun.messages huse, by simp,
      hF (s.kernel.shrinks_commit hdel) hrun.facts, hG⟩, rfl⟩
  · refine ⟨hrun.kernel.spared, fun hstrict hfree _ => ?_⟩
    rw [Kernel.admits_of_isDelete hdel, hstrict.accepts,
      hrun.kernel.sparesUsed hfree hrun.messages] at hrefused
    cases hrefused

/-- The comments of the rules of a chain can be read, and none satisfies `p`. -/
def NoneLeft (p : Rule → Except Panic Bool) (t c : Str) (k : Kernel) : Prop :=
  ∀ r ∈ k.rules, r.inChain t c = true → p r = .ok false

/-- Rules that are gone do not come back. -/
theorem shrinkClosed_noneLeft (p : Rule → Except Panic Bool) (t c : Str) :
    ShrinkClosed (NoneLeft p t c) := fun _ _ hk hnone r hr => hnone r (hk.rules r hr)

/-- What the loop over the rules of a chain looks for, and which rules it goes over. -/
structure Reads (k₀ : Kernel) (p : Rule → Except Panic Bool) (t c : Str) : Prop where
  listed : ∀ r : Rule, p r.listed = p r
  own : ∀ r : Rule, r.inChain t c = true → p r = .ok true → r.isLegacy = true
  table : t ∈ k₀.tables
  read : ∀ r : Rule, r.inChain t c = true → r.isRead = true
  isOk : ∀ r : Rule, (p r).isOk = (getComment r.userData).isOk

/-- The comments of a chain can be read, and the deletion of the rules that satisfy `p` is
queued. -/
structure DeletesQueued (p : Rule → Except Panic Bool) (t c : Str) (b : Bool) (s : State) :
    Prop where
  read : ∀ r ∈ s.kernel.rules, r.inChain t c = true → ∃ own, p r = .ok own
  queued : ∀ r ∈ s.kernel.rules, r.inChain t c = true → p r = .ok true →
    .delRule t c r.handle ∈ s.messages
  none : b = false → NoneLeft p t c s.kernel

/-- A rule whose comment cannot be read is one of the start. -/
theorem LegacyRun.unreadable {p : Rule → Except Panic Bool} {t c : Str} {s : State}
    (hrun : LegacyRun h k₀ F s) (hp : Reads k₀ p t c)
    (hread : ¬ ∀ r ∈ s.kernel.getRules t c, ∃ own, p r = .ok own) : ¬ LegacyReadable k₀ := by
  intro hreadable
  refine hread fun x hx => ?_
  obtain ⟨r, hr, rfl⟩ := List.mem_map.1 hx
  obtain ⟨hr, hc⟩ := List.mem_filter.1 hr
  have htab : r.table ∈ k₀.tables := by
    rw [(Rule.inChain_iff.1 hc).1]
    exact hp.table
  have hok := hreadable r (hrun.kernel.spared.mem_of_mem_rules hr) htab (hp.read r hc)
  rw [← hp.isOk] at hok
  rw [hp.listed]
  cases hpr : p r with
  | ok own => exact ⟨own, rfl⟩
  | error e =>
    rw [hpr] at hok
    cases hok

/-- `deleteRulesWhere` queues the deletion of the rules that the test recognises. -/
theorem triple_deleteRulesWhere {p : Rule → Except Panic Bool} {t c : Str} (hp : Reads k₀ p t c)
    (rules : List Rule) :
    Triple (fun s => LegacyRun h k₀ F s ∧ rules = s.kernel.getRules t c)
      (deleteRulesWhere p rules)
      (fun b s => (LegacyRun h k₀ F s ∧ rules = s.kernel.getRules t c) ∧ DeletesQueued p t c b s)
      (LegacyFailed h k₀) := by
  intro s ⟨hrun, hrules⟩
  have hmem : ∀ r ∈ s.kernel.rules, r.inChain t c = true → r.listed ∈ rules := by
    intro r hr hc
    rw [hrules]
    exact List.mem_map_of_mem (List.mem_filter.2 ⟨hr, hc⟩)
  by_cases hread : ∀ r ∈ rules, ∃ own, p r = .ok own
  swap
  · obtain ⟨s', hs', hkernel⟩ := deleteRulesWhere_unreadable hread s
    rw [hs']
    rw [hrules] at hread
    exact ⟨hkernel ▸ hrun.kernel.spared, fun _ _ => hrun.unreadable hp hread⟩
  rw [deleteRulesWhere_apply hread]
  refine ⟨⟨⟨hrun.kernel, fun op hop => ?_, hrun.facts⟩, hrules⟩, fun r hr hc => ?_,
    fun r hr hc hown => ?_, fun hb r hr hc => ?_⟩
  · rcases List.mem_append.1 hop with hop | hop
    · exact hrun.messages op hop
    · obtain ⟨x, hx, rfl⟩ := List.mem_map.1 hop
      obtain ⟨hx, hpx⟩ := List.mem_filter.1 hx
      rw [hrules] at hx
      obtain ⟨r, hr, rfl⟩ := List.mem_map.1 hx
      obtain ⟨hr, hrc⟩ := List.mem_filter.1 hr
      intro r' hr' _ hhandle
      -- a handle names one rule
      have hsame : r' = r := List.inj_on_of_nodup_map hrun.kernel.wf.handles_nodup hr' hr hhandle
      rw [hsame]
      rw [recognised_eq_true, hp.listed] at hpx
      exact hp.own r hrc hpx
  · rw [← hp.listed]
    exact hread _ (hmem r hr hc)
  · refine List.mem_append_right _
      (List.mem_map.2 ⟨r.listed, List.mem_filter.2 ⟨hmem r hr hc, ?_⟩, ?_⟩)
    · rw [recognised_eq_true, hp.listed]
      exact hown
    · obtain ⟨ht, hn⟩ := Rule.inChain_iff.1 hc
      change Op.delRule r.table r.chain r.handle = _
      rw [ht, hn]
  · have hnot := List.any_eq_false.1 hb r.listed (hmem r hr hc)
    rw [recognised_eq_true, hp.listed] at hnot
    obtain ⟨own, hown⟩ := hread _ (hmem r hr hc)
    rw [hp.listed] at hown
    cases own with
    | false => exact hown
    | true => exact absurd hown hnot

/-- A flush deletes the rules. -/
theorem DeletesQueued.commit {p : Rule → Except Panic Bool} {t c : Str} {b : Bool} {s : State}
    (hq : DeletesQueued p t c b s) (hrun : LegacyRun h k₀ F s) :
    NoneLeft p t c (s.kernel.commit s.messages) := by
  intro r hr hc
  rw [Kernel.commit_deletes fun op hop => (hrun.messages op hop).isDelete] at hr
  obtain ⟨hr, hkept⟩ := List.mem_filter.1 hr
  rw [Bool.not_eq_true', List.any_eq_false] at hkept
  obtain ⟨own, hown⟩ := hq.read r hr hc
  cases own with
  | false => exact hown
  | true =>
    refine absurd ?_ (hkept _ (hq.queued r hr hc hown))
    rw [Op.deletes, hc, Bool.true_and, beq_self_eq_true]

/-! ### Chains -/

/-- A base chain keeps the rules that are not the daemon's. -/
theorem triple_cleanupLegacyBaseChain (hF : ShrinkClosed F) {t : Str}
    (ht : legacyNames.contains t = true) (htab : t ∈ k₀.tables) (c : Chain) :
    Triple (LegacyRun h k₀ F) (cleanupLegacyBaseChain h t c)
      (fun _ => LegacyRun h k₀ fun k => F k ∧
        (c.table = t ∧ legacyDaemonBaseChainNames.contains c.name = true →
          NoneLeft legacyDaemonRule t c.name k)) (LegacyFailed h k₀) := by
  refine Triple.ite (fun hc => ?_) fun hc => Triple.pure fun s hs =>
    hs.mono fun hfacts => ⟨hfacts, fun hc' => absurd hc' hc⟩
  have hreads : Reads k₀ legacyDaemonRule t c.name := by
    refine ⟨fun _ => rfl, fun r hr hd => ?_, htab, fun r hr => ?_, isOk_legacyDaemonRule⟩
    all_goals obtain ⟨hrt, hrc⟩ := Rule.inChain_iff.1 hr
    · rw [Rule.isLegacy, hrt, hrc, ht, hc.2, recognised_eq_true.2 hd]
      rfl
    · rw [Rule.isRead, hrt, hrc, ht, hc.2]
      rfl
  refine Triple.bind (triple_wrapErr (triple_legacyQuery _) _) fun rules => ?_
  refine Triple.bind (triple_deleteRulesWhere hreads rules) fun b => ?_
  refine Triple.ite (fun _ => ?_) fun hb => Triple.pure fun s hs =>
    hs.1.1.mono fun hfacts => ⟨hfacts, fun _ => hs.2.none (Bool.eq_false_iff.2 hb)⟩
  refine Triple.conseq (triple_wrapErr (triple_legacyFlush hF fun s hs =>
    ⟨hs.1.1, hs.2.commit hs.1.1⟩) _) (fun _ hs => hs) fun _ s hs => hs.1.mono fun hfacts =>
      ⟨hfacts.1, fun _ => hfacts.2⟩

/-- A chain holds no rules. -/
def EmptyChain (t c : Str) (k : Kernel) : Prop := ∀ r ∈ k.rules, r.inChain t c = false

/-- A chain without listed rules is empty. -/
theorem emptyChain_of_getRules {t c : Str} {k : Kernel} (hnone : (k.getRules t c).isEmpty = true) :
    EmptyChain t c k := by
  intro r hr
  rw [List.isEmpty_iff, Kernel.getRules, List.map_eq_nil_iff, List.filter_eq_nil_iff] at hnone
  exact Bool.eq_false_iff.2 (hnone r hr)

/-- The rules of a chain of the daemon. -/
theorem triple_cleanupLegacyDaemonChainRules (hF : ShrinkClosed F) {t : Str}
    (ht : legacyNames.contains t = true) (htab : t ∈ k₀.tables) {c : Chain}
    (hc : legacyDaemonChainNames.contains c.name = true) :
    Triple (LegacyRun h k₀ F) (cleanupLegacyDaemonChainRules h t c)
      (fun b s => LegacyRun h k₀ (fun k => F k ∧ NoneLeft legacyDaemonChainRule t c.name k) s ∧
        (b = false → EmptyChain t c.name s.kernel)) (LegacyFailed h k₀) := by
  have hreads : Reads k₀ legacyDaemonChainRule t c.name := by
    refine ⟨fun _ => rfl, fun r hr hd => ?_, htab, fun r hr => ?_, isOk_legacyDaemonChainRule⟩
    all_goals obtain ⟨hrt, hrc⟩ := Rule.inChain_iff.1 hr
    · rw [Rule.isLegacy, hrt, hrc, ht, hc, recognised_eq_true.2 hd, Bool.and_self, Bool.or_true,
        Bool.and_self]
    · rw [Rule.isRead, hrt, hrc, ht, hc, Bool.or_true, Bool.and_self]
  -- the answer is whether rules are left, read from the kernel after the deletions
  have hempty : ∀ {rules : List Rule} {k : Kernel}, rules = k.getRules t c.name →
      (!rules.isEmpty) = false → EmptyChain t c.name k := by
    intro rules k hrules hb
    rw [Bool.not_eq_false', hrules] at hb
    exact emptyChain_of_getRules hb
  refine Triple.bind (triple_wrapErr (triple_legacyQuery _) _) fun rules => ?_
  refine Triple.bind (triple_deleteRulesWhere hreads rules) fun b => ?_
  refine Triple.ite (fun _ => ?_) fun hb => Triple.pure fun s hs =>
    ⟨hs.1.1.mono fun hfacts => ⟨hfacts, hs.2.none (Bool.eq_false_iff.2 hb)⟩, hempty hs.1.2⟩
  refine Triple.bind (triple_wrapErr (triple_legacyFlush hF fun s hs =>
    ⟨hs.1.1, hs.2.commit hs.1.1⟩) _) fun _ => ?_
  refine Triple.bind (triple_wrapErr (Triple.conseq (triple_legacyQuery _) (fun _ hs => hs.1)
    fun _ _ hs => hs) _) fun rules => ?_
  exact Triple.pure fun s hs => ⟨hs.1, hempty hs.2⟩

/-- No rule of a table jumps to a chain. -/
def NoReferences (t c : Str) (k : Kernel) : Prop :=
  ∀ r ∈ k.rules, r.table = t → ruleReferencesChain r c = false

theorem ruleReferencesChain_listed (r : Rule) (c : Str) :
    ruleReferencesChain r.listed c = ruleReferencesChain r c := by
  unfold ruleReferencesChain Rule.listed
  rw [List.any_map]
  congr 1
  funext e
  cases e <;> rfl

/-- No rule of one of the chains jumps to a chain. -/
def NoReferencesIn (t c : Str) (chains : List Chain) (k : Kernel) : Prop :=
  ∀ x ∈ chains, x.table = t → ∀ r ∈ k.rules, r.inChain t x.name = true →
    ruleReferencesChain r c = false

/-- A search without result has seen all chains. -/
theorem triple_anyRuleReferences (t c : Str) : ∀ (chains : List Chain) (F : Kernel → Prop),
    Triple (LegacyRun h k₀ F) (anyRuleReferences h t c chains)
      (fun b s => LegacyRun h k₀ F s ∧ (b = false → NoReferencesIn t c chains s.kernel))
      (LegacyFailed h k₀)
  | [], F => Triple.pure fun s hs => ⟨hs, fun _ x hx => by cases hx⟩
  | x :: xs, F => by
    rw [anyRuleReferences]
    refine Triple.ite (fun hx => ?_) fun hx => ?_
    · refine Triple.bind (triple_wrapErr (triple_legacyQuery _) _) fun rules => ?_
      refine Triple.ite (fun _ => Triple.pure fun s hs => ⟨hs.1, fun hb => by cases hb⟩)
        fun hnot => ?_
      -- the rules of this chain are looked through once
      refine Triple.conseq (triple_anyRuleReferences t c xs fun k => F k ∧
        ∀ r ∈ k.rules, r.inChain t x.name = true → ruleReferencesChain r c = false)
        (fun s hs => hs.1.mono fun hfacts => ⟨hfacts, fun r hr hc => ?_⟩)
        fun b s hs => ⟨hs.1.mono fun hfacts => hfacts.1, fun hb y hy hyt => ?_⟩
      · rw [Bool.not_eq_true, List.any_eq_false] at hnot
        have hr' := hnot r.listed (by
          rw [hs.2]
          exact List.mem_map_of_mem (List.mem_filter.2 ⟨hr, hc⟩))
        rw [ruleReferencesChain_listed, Bool.not_eq_true] at hr'
        exact hr'
      · rcases List.mem_cons.1 hy with rfl | hy
        · exact hs.1.facts.2
        · exact hs.2 hb y hy hyt
    · refine Triple.conseq (triple_anyRuleReferences t c xs F) (fun _ hs => hs) fun b s hs =>
        ⟨hs.1, fun hb y hy hyt => ?_⟩
      rcases List.mem_cons.1 hy with rfl | hy
      · exact absurd hyt hx
      · exact hs.2 hb y hy hyt

/-- The rules of a table are all in chains that are listed. -/
theorem triple_legacyChainReferenced (t c : Str) :
    Triple (LegacyRun h k₀ F) (legacyChainReferenced h t c)
      (fun b s => LegacyRun h k₀ F s ∧ (b = false → NoReferences t c s.kernel))
      (LegacyFailed h k₀) := by
  refine Triple.bind (triple_wrapErr (triple_legacyQuery _) _) fun chains => ?_
  refine Triple.conseq (triple_anyRuleReferences t c chains fun k => F k ∧ chains = k.chains)
    (fun s hs => hs.1.mono fun hfacts => ⟨hfacts, hs.2⟩) fun b s hs =>
      ⟨hs.1.mono fun hfacts => hfacts.1, fun hb r hr ht => ?_⟩
  obtain ⟨x, hx, hxt, hxn⟩ := Kernel.hasChain_iff.1 (hs.1.kernel.wf.chain_exists r hr)
  rw [← hs.1.facts.2] at hx
  refine hs.2 hb x hx (hxt.trans ht) r hr (Rule.inChain_iff.2 ⟨ht, ?_⟩)
  exact hxn.symm

/-- A chain of the daemon goes when it is empty and nothing refers to it. -/
theorem triple_cleanupLegacyDaemonChain (hF : ShrinkClosed F) {t : Str}
    (ht : legacyNames.contains t = true) (htab : t ∈ k₀.tables) (b : Bool) (c : Chain) :
    Triple (LegacyRun h k₀ F) (cleanupLegacyDaemonChain h t b c)
      (fun _ => LegacyRun h k₀ fun k => F k ∧
        (c.table = t ∧ legacyDaemonChainNames.contains c.name = true →
          NoneLeft legacyDaemonChainRule t c.name k)) (LegacyFailed h k₀) := by
  refine Triple.ite (fun hc => ?_) fun hc => Triple.pure fun s hs =>
    hs.mono fun hfacts => ⟨hfacts, fun hc' => absurd hc' hc⟩
  refine Triple.bind (triple_cleanupLegacyDaemonChainRules hF ht htab hc.2) fun remaining => ?_
  -- the kernel does not change while the references are looked for
  refine Triple.bind (Triple.conseq (triple_legacyChainReferenced t c.name (F := fun k =>
    (F k ∧ NoneLeft legacyDaemonChainRule t c.name k) ∧
      (remaining = false → EmptyChain t c.name k)))
    (fun s hs => hs.1.mono fun hfacts => ⟨hfacts, hs.2⟩) fun _ _ hs => hs) fun referenced => ?_
  have hdone : ∀ s : State, LegacyRun h k₀ (fun k => (F k ∧
      NoneLeft legacyDaemonChainRule t c.name k) ∧ (remaining = false → EmptyChain t c.name k)) s →
      LegacyRun h k₀ (fun k => F k ∧ (c.table = t ∧ legacyDaemonChainNames.contains c.name = true →
        NoneLeft legacyDaemonChainRule t c.name k)) s :=
    fun s hs => hs.mono fun hfacts => ⟨hfacts.1.1, fun _ => hfacts.1.2⟩
  refine Triple.ite (fun _ => Triple.pure fun s hs => hdone s hs.1) fun href => ?_
  refine Triple.ite (fun _ => Triple.pure fun s hs => hdone s hs.1) fun hrem => ?_
  refine Triple.bind (Triple.modify fun s hs => ?_) fun _ => Triple.pure fun s hs => hs
  obtain ⟨hrun, hrefs⟩ := hs
  have hnew := hdone s hrun
  refine ⟨hnew.kernel, fun op hop => ?_, hnew.facts⟩
  rcases List.mem_append.1 hop with hop | hop
  · exact hrun.messages op hop
  · rw [List.mem_singleton.1 hop, hc.1]
    exact ⟨⟨ht, hc.2⟩, hrun.facts.2 (Bool.eq_false_iff.2 hrem), hrefs (Bool.eq_false_iff.2 href)⟩

/-! ### Tables -/

/-- The chains of a list that satisfy `sel` hold no rules that satisfy `p`. -/
def NoneLeftIn (sel : Chain → Prop) (p : Rule → Except Panic Bool) (t : Str) (done : List Chain)
    (k : Kernel) : Prop :=
  ∀ c ∈ done, sel c → NoneLeft p t c.name k

theorem shrinkClosed_noneLeftIn (sel : Chain → Prop) (p : Rule → Except Panic Bool) (t : Str)
    (done : List Chain) : ShrinkClosed (NoneLeftIn sel p t done) :=
  fun _ _ hk hnone c hc hs => shrinkClosed_noneLeft p t c.name hk (hnone c hc hs)

theorem noneLeftIn_append {sel : Chain → Prop} {p : Rule → Except Panic Bool} {t : Str}
    {done : List Chain} {c : Chain} {k : Kernel} (hdone : NoneLeftIn sel p t done k)
    (hc : sel c → NoneLeft p t c.name k) : NoneLeftIn sel p t (done ++ [c]) k := by
  intro x hx hs
  rcases List.mem_append.1 hx with hx | hx
  · exact hdone x hx hs
  · rw [List.mem_singleton.1 hx] at hs ⊢
    exact hc hs

/-- The chains of a table that the cleanup looks into as base chains. -/
def InLegacyBase (t : Str) (c : Chain) : Prop :=
  c.table = t ∧ legacyDaemonBaseChainNames.contains c.name = true

/-- The chains of a table that have a daemon's name. -/
def InLegacyDaemon (t : Str) (c : Chain) : Prop :=
  c.table = t ∧ legacyDaemonChainNames.contains c.name = true

/-- All base chains of a table. -/
theorem triple_baseChains (hF : ShrinkClosed F) {t : Str} (ht : legacyNames.contains t = true)
    (htab : t ∈ k₀.tables) (chains : List Chain) :
    Triple (LegacyRun h k₀ F) (chains.forM (cleanupLegacyBaseChain h t))
      (fun _ => LegacyRun h k₀ fun k => F k ∧
        NoneLeftIn (InLegacyBase t) legacyDaemonRule t chains k) (LegacyFailed h k₀) := by
  refine Triple.conseq (Triple.forM (I := fun done => LegacyRun h k₀ fun k => F k ∧
    NoneLeftIn (InLegacyBase t) legacyDaemonRule t done k) fun done c _ => ?_)
    (fun s hs => hs.mono fun hfacts => ⟨hfacts, fun c hc => by cases hc⟩) fun _ _ hs => hs
  exact Triple.conseq
    (triple_cleanupLegacyBaseChain (hF.and (shrinkClosed_noneLeftIn _ _ t done)) ht htab c)
    (fun _ hs => hs) fun _ s hs => hs.mono fun hfacts =>
      ⟨hfacts.1.1, noneLeftIn_append hfacts.1.2 hfacts.2⟩

/-- All chains of the daemon in a table. -/
theorem triple_daemonChains (hF : ShrinkClosed F) {t : Str} (ht : legacyNames.contains t = true)
    (htab : t ∈ k₀.tables) (chains : List Chain) :
    Triple (LegacyRun h k₀ F) (chains.foldlM (cleanupLegacyDaemonChain h t) false)
      (fun _ => LegacyRun h k₀ fun k => F k ∧
        NoneLeftIn (InLegacyDaemon t) legacyDaemonChainRule t chains k) (LegacyFailed h k₀) := by
  refine Triple.conseq (Triple.foldlM (I := fun done _ => LegacyRun h k₀ fun k => F k ∧
    NoneLeftIn (InLegacyDaemon t) legacyDaemonChainRule t done k) (fun done c _ b => ?_) false)
    (fun s hs => hs.mono fun hfacts => ⟨hfacts, fun c hc => by cases hc⟩) fun _ _ hs => hs
  exact Triple.conseq
    (triple_cleanupLegacyDaemonChain (hF.and (shrinkClosed_noneLeftIn _ _ t done)) ht htab b c)
    (fun _ hs => hs) fun _ s hs => hs.mono fun hfacts =>
      ⟨hfacts.1.1, noneLeftIn_append hfacts.1.2 hfacts.2⟩

/-- The rules of a table are in chains of a list. -/
def ChainsListed (t : Str) (chains : List Chain) (k : Kernel) : Prop :=
  ∀ r ∈ k.rules, r.table = t → ∃ c ∈ chains, c.table = t ∧ c.name = r.chain

theorem shrinkClosed_chainsListed (t : Str) (chains : List Chain) :
    ShrinkClosed (ChainsListed t chains) := fun _ _ hk hlisted r hr => hlisted r (hk.rules r hr)

/-- No rule of a table is a legacy one. -/
def NoLegacyRules (t : Str) (k : Kernel) : Prop := ∀ r ∈ k.rules, r.table = t → r.isLegacy = false

/-- When both kinds of chains are done, the legacy rules of the table are gone. -/
theorem noLegacyRules_of_noneLeft {t : Str} {chains : List Chain} {k : Kernel}
    (hlisted : ChainsListed t chains k)
    (hbase : NoneLeftIn (InLegacyBase t) legacyDaemonRule t chains k)
    (hdaemon : NoneLeftIn (InLegacyDaemon t) legacyDaemonChainRule t chains k) :
    NoLegacyRules t k := by
  intro r hr ht
  obtain ⟨c, hc, hct, hcn⟩ := hlisted r hr ht
  have hin : r.inChain t c.name = true := Rule.inChain_iff.2 ⟨ht, hcn.symm⟩
  by_contra hleg
  rw [Bool.not_eq_false, Rule.isLegacy, Bool.and_eq_true, Bool.or_eq_true, Bool.and_eq_true,
    Bool.and_eq_true, ← hcn] at hleg
  rcases hleg.2 with ⟨hname, hrule⟩ | ⟨hname, hrule⟩
  · rw [recognised_eq_true, hbase c hc ⟨hct, hname⟩ r hr hin] at hrule
    cases hrule
  · rw [recognised_eq_true, hdaemon c hc ⟨hct, hname⟩ r hr hin] at hrule
    cases hrule

/-- The comments that the cleanup looks at in a table can be read. -/
def ReadableIn (t : Str) (k : Kernel) : Prop :=
  ∀ r ∈ k.rules, r.table = t → r.isRead = true → (getComment r.userData).isOk = true

theorem shrinkClosed_readableIn (t : Str) : ShrinkClosed (ReadableIn t) :=
  fun _ _ hk hread r hr => hread r (hk.rules r hr)

/-- When both kinds of chains are done, all comments have been read. -/
theorem readableIn_of_noneLeft {t : Str} {chains : List Chain} {k : Kernel}
    (hlisted : ChainsListed t chains k)
    (hbase : NoneLeftIn (InLegacyBase t) legacyDaemonRule t chains k)
    (hdaemon : NoneLeftIn (InLegacyDaemon t) legacyDaemonChainRule t chains k) :
    ReadableIn t k := by
  intro r hr ht hread
  obtain ⟨c, hc, hct, hcn⟩ := hlisted r hr ht
  have hin : r.inChain t c.name = true := Rule.inChain_iff.2 ⟨ht, hcn.symm⟩
  rw [Rule.isRead, Bool.and_eq_true, Bool.or_eq_true, ← hcn] at hread
  rcases hread.2 with hname | hname
  · rw [← isOk_legacyDaemonRule, hbase c hc ⟨hct, hname⟩ r hr hin]
    rfl
  · rw [← isOk_legacyDaemonChainRule, hdaemon c hc ⟨hct, hname⟩ r hr hin]
    rfl

/-! ### Sets -/

/-- No set of a table is a legacy one. -/
def NoLegacySets (t : Str) (k : Kernel) : Prop := ∀ x ∈ k.sets, x.table = t → x.isLegacy = false

theorem shrinkClosed_noLegacySets (t : Str) : ShrinkClosed (NoLegacySets t) :=
  fun _ _ hk hnone x hx => hnone x (hk.sets x hx)

/-- Names of sets are unique in their tables. -/
def Kernel.SetsNamed (k : Kernel) : Prop :=
  ∀ x ∈ k.sets, ∀ y ∈ k.sets, x.table = y.table → x.name = y.name → x = y

/-- No set is new. -/
theorem Spared.mem_of_mem_sets {k k' : Kernel} (hs : Spared k k') {x : NftSet}
    (hx : x ∈ k'.sets) : x ∈ k.sets := by
  obtain ⟨p, hp, -⟩ := hs.sets
  rw [hp] at hx
  exact List.mem_of_mem_filter hx

/-- A batch with the deletion of a set leaves no set of that name. -/
theorem Kernel.commit_delSet {t n : Str} : ∀ {ops : List Op}, (∀ op ∈ ops, op.isDelete = true) →
    Op.delSet t n ∈ ops → ∀ (k : Kernel), ∀ x ∈ (k.commit ops).sets, ¬ (x.table = t ∧ x.name = n)
  | [], _, hmem, _ => by cases hmem
  | op :: ops, hops, hmem, k => by
    intro x hx
    rw [Kernel.commit_cons] at hx
    have hrest : ∀ o ∈ ops, o.isDelete = true := fun o ho => hops o (List.mem_cons_of_mem _ ho)
    rcases List.mem_cons.1 hmem with rfl | hmem
    · have hx' := (Kernel.shrinks_commit hrest _).sets x hx
      have hkept := (List.mem_filter.1 hx').2
      rw [Bool.not_eq_true', Bool.and_eq_false_iff, beq_eq_false_iff_ne,
        beq_eq_false_iff_ne] at hkept
      rintro ⟨hxt, hxn⟩
      exact hkept.elim (fun hne => hne hxt) fun hne => hne hxn
    · exact commit_delSet hrest hmem _ x hx

/-- The deletion of the legacy sets of a table is queued. -/
def SetsQueued (t : Str) (done : List NftSet) (b : Bool) (s : State) : Prop :=
  ∀ x ∈ done, legacyDaemonSet x = true → .delSet t x.name ∈ s.messages ∧ b = true

/-- The sets of the daemon in a table. -/
theorem triple_cleanupLegacySets (hnames : k₀.SetsNamed) {t : Str}
    (ht : legacyNames.contains t = true) (htab : t ∈ k₀.tables) (sets : List NftSet) (b : Bool) :
    Triple (fun s => LegacyRun h k₀ (fun k => F k ∧ NoLegacyRules t k) s ∧
        sets = s.kernel.sets.filter fun x => x.table == t)
      (sets.foldlM cleanupLegacySet b)
      (fun b s => (LegacyRun h k₀ (fun k => F k ∧ NoLegacyRules t k) s ∧
        sets = s.kernel.sets.filter fun x => x.table == t) ∧ SetsQueued t sets b s)
      (LegacyFailed h k₀) := by
  -- invariant of the loop: what was met so far and is the daemon's is queued for deletion
  refine Triple.conseq (Triple.foldlM (I := fun done b s =>
    (LegacyRun h k₀ (fun k => F k ∧ NoLegacyRules t k) s ∧
      sets = s.kernel.sets.filter fun x => x.table == t) ∧ SetsQueued t done b s)
    (fun done x hx b => ?_) b) (fun s hs => ⟨hs, fun x hx => by cases hx⟩) fun _ _ hs => hs
  refine Triple.ite (fun hown => ?_) fun hown => Triple.pure fun s hs => ⟨hs.1, fun y hy hd => ?_⟩
  · refine Triple.bind (Triple.modify fun s hs => ?_) fun _ => Triple.pure fun s hs => hs
    obtain ⟨⟨hrun, hsets⟩, hqueued⟩ := hs
    have hx' := hx
    rw [hsets, List.mem_filter, beq_iff_eq] at hx'
    have hxs := hrun.kernel.spared.mem_of_mem_sets hx'.1
    -- a set with the daemon's name in a legacy table is one to delete
    have hleg : x.isLegacy = true := by rw [NftSet.isLegacy, hx'.2, ht, hown, Bool.and_self]
    refine ⟨⟨⟨hrun.kernel, fun op hop => ?_, hrun.facts⟩, hsets⟩, fun y hy hd => ⟨?_, rfl⟩⟩
    · rcases List.mem_append.1 hop with hop | hop
      · exact hrun.messages op hop
      · rw [List.mem_singleton.1 hop]
        refine ⟨fun y hy hyt hyn => ?_, ⟨x, hxs, hx'.2 ▸ htab, hleg, rfl, rfl⟩, ?_⟩
        · rw [hnames y (hrun.kernel.spared.mem_of_mem_sets hy) x hxs hyt hyn]
          exact hleg
        · rw [hx'.2]
          exact hrun.facts.2
    · rcases List.mem_append.1 hy with hy | hy
      · exact List.mem_append_left _ (hqueued y hy hd).1
      · rw [List.mem_singleton.1 hy, ← hx'.2]
        exact List.mem_append_right _ (List.mem_singleton_self _)
  · rcases List.mem_append.1 hy with hy | hy
    · exact hs.2 y hy hd
    · rw [List.mem_singleton.1 hy] at hd
      exact absurd hd hown

/-- What is queued covers the legacy sets of the table. -/
theorem SetsQueued.mem {t : Str} {k : Kernel} {b : Bool} {s : State} {x : NftSet}
    (hq : SetsQueued t (k.sets.filter fun x => x.table == t) b s) (hx : x ∈ k.sets)
    (hxt : x.table = t) (hleg : x.isLegacy = true) : .delSet t x.name ∈ s.messages ∧ b = true := by
  rw [NftSet.isLegacy, Bool.and_eq_true] at hleg
  exact hq x (List.mem_filter.2 ⟨hx, beq_iff_eq.2 hxt⟩) hleg.2

theorem SetsQueued.noLegacySets {t : Str} {s : State}
    (hq : SetsQueued t (s.kernel.sets.filter fun x => x.table == t) false s) :
    NoLegacySets t s.kernel := by
  intro x hx hxt
  by_contra hleg
  cases (hq.mem hx hxt (Bool.not_eq_false _ ▸ hleg)).2

/-- The batch takes the sets away. -/
theorem SetsQueued.commit {t : Str} {b : Bool} {s : State}
    (hq : SetsQueued t (s.kernel.sets.filter fun x => x.table == t) b s)
    (hrun : LegacyRun h k₀ F s) : NoLegacySets t (s.kernel.commit s.messages) := by
  intro x hx hxt
  have hdel : ∀ op ∈ s.messages, op.isDelete = true := fun op hop => (hrun.messages op hop).isDelete
  by_contra hleg
  rw [Bool.not_eq_false] at hleg
  have hold := (Kernel.shrinks_commit hdel _).sets x hx
  exact Kernel.commit_delSet hdel (hq.mem hold hxt hleg).1 _ x hx ⟨hxt, rfl⟩

/-- **One table.**  The legacy sets go in the last batch, when the legacy rules are gone. -/
theorem triple_cleanupLegacyTable (hF : ShrinkClosed F) (hnames : k₀.SetsNamed) {t : Str}
    (htab : t ∈ k₀.tables) :
    Triple (LegacyRun h k₀ F) (cleanupLegacyTable h t)
      (fun _ => LegacyRun h k₀ fun k => (F k ∧ ReadableIn t k) ∧ NoLegacySets t k)
      (LegacyFailed h k₀) := by
  refine Triple.ite (fun ht => ?_) fun ht => Triple.pure fun s hs =>
    hs.mono fun hfacts => ⟨⟨hfacts, fun r _ hrt hread => ?_⟩, fun x _ hxt => ?_⟩
  · refine Triple.bind (triple_wrapErr (triple_legacyQuery _) _) fun chains => ?_
    -- the chains that were listed are all there are, also after deletions
    have hclosed := hF.and (shrinkClosed_chainsListed t chains)
    refine Triple.bind (Triple.conseq (triple_baseChains hclosed ht htab chains)
      (fun s hs => hs.1.mono fun hfacts => ⟨hfacts, fun r hr hrt => ?_⟩)
      fun _ _ hs => hs) fun _ => ?_
    · obtain ⟨c, hc, hct, hcn⟩ := Kernel.hasChain_iff.1 (hs.1.kernel.wf.chain_exists r hr)
      rw [← hs.2] at hc
      exact ⟨c, hc, hct.trans hrt, hcn⟩
    refine Triple.bind (triple_daemonChains (hclosed.and (shrinkClosed_noneLeftIn _ _ t chains)) ht
      htab chains) fun b => ?_
    refine Triple.bind (Triple.conseq (triple_wrapErr (triple_legacyQuery (F := fun k =>
      (F k ∧ ReadableIn t k) ∧ NoLegacyRules t k) _) _) (fun s hs => hs.mono fun hfacts =>
        ⟨⟨hfacts.1.1.1, readableIn_of_noneLeft hfacts.1.1.2 hfacts.1.2 hfacts.2⟩,
          noLegacyRules_of_noneLeft hfacts.1.1.2 hfacts.1.2 hfacts.2⟩) fun _ _ hs => hs)
      fun sets => ?_
    -- no rule is left that could use one of the sets
    refine Triple.bind (triple_cleanupLegacySets hnames ht htab sets b) fun b' => ?_
    refine Triple.ite (fun _ => ?_) fun hb => Triple.pure fun s hs => ?_
    · refine Triple.conseq (triple_wrapErr (triple_legacyFlush (G := NoLegacySets t)
        (hF.and (shrinkClosed_readableIn t))
        fun s hs => ⟨hs.1.1.mono fun hfacts => hfacts.1, ?_⟩) _)
        (fun _ hs => hs) fun _ s hs => hs.1
      obtain ⟨⟨hrun, rfl⟩, hq⟩ := hs
      exact hq.commit hrun
    · obtain ⟨⟨hrun, rfl⟩, hq⟩ := hs
      rw [Bool.eq_false_iff.2 hb] at hq
      exact hrun.mono fun hfacts => ⟨hfacts.1, hq.noLegacySets⟩
  · rw [Rule.isRead, hrt, Bool.eq_false_iff.2 ht, Bool.false_and] at hread
    cases hread
  · rw [NftSet.isLegacy, hxt, Bool.eq_false_iff.2 ht, Bool.false_and]

/-- **The whole cleanup.**  When it succeeds no legacy set is left, and all comments that it looks
at could be read. -/
theorem cleanupLegacyTables_spec (hnames : k₀.SetsNamed) :
    Triple (LegacyRun h k₀ fun _ => True) (cleanupLegacyTables h)
      (fun _ => LegacyRun h k₀ fun k => ∀ t ∈ k₀.tables, ReadableIn t k ∧ NoLegacySets t k)
      (LegacyFailed h k₀) := by
  refine Triple.bind (triple_wrapErr (triple_legacyQuery _) _) fun tables => ?_
  intro s ⟨hrun, htables⟩
  have htables' : tables = k₀.tables := htables.trans hrun.kernel.spared.tables
  subst htables'
  refine Triple.conseq (Triple.forM (I := fun done => LegacyRun h k₀ fun k =>
    ∀ t ∈ done, ReadableIn t k ∧ NoLegacySets t k) fun done t ht => ?_)
    (fun s hs => hs) (fun _ _ hs => hs) s (hrun.mono fun _ t ht => by cases ht)
  have hclosed : ShrinkClosed fun k => ∀ t ∈ done, ReadableIn t k ∧ NoLegacySets t k :=
    fun _ _ hk hall t ht => ⟨shrinkClosed_readableIn t hk (hall t ht).1,
      shrinkClosed_noLegacySets t hk (hall t ht).2⟩
  refine Triple.conseq (triple_cleanupLegacyTable hclosed hnames ht) (fun _ hs => hs) fun _ s hs =>
    hs.mono fun hfacts x hx => ?_
  rcases List.mem_append.1 hx with hx | hx
  · exact hfacts.1.1 x hx
  · rw [List.mem_singleton.1 hx]
    exact ⟨hfacts.1.2, hfacts.2⟩

end Run

/-! ### What remains -/

theorem Spared.refl (k : Kernel) : Spared k k := by
  refine ⟨rfl, ⟨fun _ => true, ?_, fun _ _ _ => rfl⟩, ⟨fun _ => true, ?_, fun _ _ _ => rfl⟩,
    ⟨fun _ => true, ?_, fun _ _ _ => rfl⟩, ⟨fun _ => true, ?_, fun _ _ _ => rfl⟩,
    fun c hc hgone => absurd hc hgone⟩
  all_goals rw [List.filter_true]

/-- The start of the cleanup. -/
theorem legacyRun_new (h : Host) {k : Kernel} (wf : k.WF) :
    LegacyRun h k (fun _ => True) (State.new k) where
  kernel := ⟨wf, Spared.refl k, fun _ x hx hgone => absurd hx hgone⟩
  messages op hop := by cases hop
  facts := trivial

/-- **The cleanup never touches foreign objects**, whether it succeeds or fails. -/
theorem foreign_objects_spared (h : Host) {k : Kernel} (wf : k.WF) (hnames : k.SetsNamed) :
    (∀ s, cleanupLegacyTables h (State.new k) = .ok () s → Spared k s.kernel) ∧
    ∀ e s, cleanupLegacyTables h (State.new k) = .error e s → Spared k s.kernel := by
  have hspec := cleanupLegacyTables_spec (h := h) hnames
  have hnew := legacyRun_new h wf
  exact ⟨fun s hs => (hspec.of_ok hnew hs).kernel.spared,
    fun e s hs => (hspec.of_error hnew hs).spared⟩

/-- Listings do not fail, and the kernel refuses only batches that delete something in use. -/
def Host.strict : Host := { Host.reliable with accepts := Kernel.sparesUsed }

theorem Host.strict_strict : Host.strict.Strict := ⟨fun _ => rfl, fun _ _ => rfl⟩

/-- A rule of the table `filter`. -/
def filterRule (chain : Str) (handle : Nat) (userData : Str) (exprs : List Expr) : Rule :=
  ⟨legacyFilterTableName, chain, handle, userData, exprs⟩

/-- What an older version left in the table `filter`, between rules of others: one that accepts in
the chain `input` and one in a chain of the daemon. -/
def mixedRuleset (foreign : List Expr) : Kernel where
  tables := [legacyFilterTableName]
  chains := [⟨legacyFilterTableName, str "input", none⟩,
    ⟨legacyFilterTableName, ingressChain, none⟩, ⟨legacyFilterTableName, egressChain, none⟩]
  rules := [
    filterRule (str "input") 1 (userDataComment inputInterfaceFilterComment)
      [.metaExpr .iifname false 1, .lookup 1 podInterfacesName 0, .counter,
        .verdict .jump ingressChain],
    filterRule (str "input") 2 [] [.verdict .accept []],
    filterRule ingressChain 3 (userDataComment (str "drop-remaining"))
      [.counter, .verdict .drop []],
    filterRule egressChain 4 [] foreign]
  sets := [⟨legacyFilterTableName, podInterfacesName, 0, false, false, false, false, .ifName,
    str "Pod interfaces"⟩]
  elements := []
  nextHandle := 5

/-- The ruleset is one that a kernel can hold. -/
theorem mixedRuleset_wf (foreign : List Expr) : (mixedRuleset foreign).WF := by
  refine ⟨show [1, 2, 3, 4].Nodup by decide, by simp [mixedRuleset, filterRule], fun r hr => ?_⟩
  simp only [mixedRuleset, List.mem_cons, List.not_mem_nil, or_false] at hr
  rcases hr with rfl | rfl | rfl | rfl
  all_goals rfl

/-- A rule that looks up the set of the daemon. -/
def podLookup : List Expr := [.metaExpr .iifname false 1, .lookup 1 podInterfacesName 0]

theorem mixedRuleset_setsNamed (foreign : List Expr) : (mixedRuleset foreign).SetsNamed := by
  intro x hx y hy _ _
  rw [List.mem_singleton.1 hx, List.mem_singleton.1 hy]

/-- The state in which a step fails. -/
def failedState {α : Type} (x : M α) (s : State) : Option State :=
  match x s with
  | .ok _ _ => none
  | .error _ s' => some s'

theorem failedState_eq_some {α : Type} {x : M α} {s s' : State} (hs : failedState x s = some s') :
    ∃ e, x s = .error e s' := by
  unfold failedState at hs
  split at hs
  · cases hs
  · rename_i e s'' heq
    obtain rfl := Option.some.inj hs
    exact ⟨e, heq⟩

set_option maxRecDepth 100000 in
/-- The cleanup stops half-way: the rules and one chain of the daemon are gone, its set and the
other chain are not. -/
theorem half_way_spared : ∃ e s,
    cleanupLegacyTables Host.strict (State.new (mixedRuleset podLookup)) = .error e s ∧
    s.kernel.rules.map Rule.handle = [2, 4] ∧ Spared (mixedRuleset podLookup) s.kernel := by
  have hrun : (failedState (cleanupLegacyTables Host.strict)
      (State.new (mixedRuleset podLookup))).any
        (fun s => decide (s.kernel.rules.map Rule.handle = [2, 4])) = true := by decide +kernel
  obtain ⟨s, hfail, hrules⟩ := (Option.any_eq_true _ _).1 hrun
  obtain ⟨e, hs⟩ := failedState_eq_some hfail
  exact ⟨e, s, hs, of_decide_eq_true hrules, (foreign_objects_spared Host.strict
    (mixedRuleset_wf podLookup) (mixedRuleset_setsNamed podLookup)).2 e s hs⟩

/-! ### When the cleanup succeeds -/

/-- A foreign rule of the chain `input` with user data that is not a list of attributes. -/
example : (failedState (cleanupLegacyTables Host.strict) (State.new { mixedRuleset [] with
    rules := [filterRule (str "input") 1 (str "my rule") [.counter]] })).isSome = true := by
  decide +kernel

end MultiNetPolicy
