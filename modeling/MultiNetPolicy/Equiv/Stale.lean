import MultiNetPolicy.Equiv.Grounded
import MultiNetPolicy.Equiv.Spared
import MultiNetPolicy.Equiv.Sync

/-!
# The cleanup removes what is stale and nothing in use

A run commits its main batch and then three batches of deletions (`Stages`).  What it leaves in the
daemon's tables was asked for in the same run (`Swept`), and no batch deletes a set or a chain that
a rule behind it looks up or jumps to (`SparesReferenced`): a rule that remains has the key of a
rule that was asked for, and those refer to sets and chains that were asked for.

* `cleanupRules_sets`, `cleanupChains_chains`: what the batches delete.
* `Remains.lookup`, `Remains.target`: what the rules that remain refer to.
* `nothing_stale_left`: the whole run.
-/

namespace MultiNetPolicy

open ByteString StateExcept

/-! ### Stages -/

/-- The states of a successful run: behind the legacy cleanup, the main flush, the two batches of
`cleanupRules` and the one of `cleanupChains`. -/
structure Stages (h : Host) (i : Input) (k : Kernel) (s₀ s₁ s₂ s₃ s : State) : Prop where
  legacy : cleanupLegacyTables h (State.new k) = .ok () s₀
  main : commitRules h i (State.new k) = .ok () s₁
  filterRules : cleanupRules h filterTableName s₁ = .ok () s₂
  natRules : cleanupRules h natTableName s₂ = .ok () s₃
  chains : cleanupChains h s₃ = .ok () s

/-- What the main flush commits. -/
structure MainFlush (h : Host) (i : Input) (s₀ : State) (es : List Event) (s₁ : State) : Prop where
  exec : Render.Exec (Render.renderInput h.byteOrder i) es ()
  kernel : ∃ tables ops, (∀ op ∈ tables, ∃ t, isManaged t = true ∧ op = .addTable t) ∧
    Queued s₀.kernel es ops ∧ s₁.kernel = s₀.kernel.commit (tables ++ ops)
  messages : s₁.messages = []
  rules : s₁.rules = (rulesOf es).map (hashRule h)
  sets : s₁.sets = (setsOf es).map fun x => objectKey x.table x.name
  chains : s₁.chains = (chainsOf es).map fun c => objectKey c.table c.name
  requested : s₁.requested = rulesOf es

/-- The states of a successful run. -/
theorem exists_stages {h : Host} {i : Input} {k : Kernel} {s : State} (wf : k.WF)
    (hs : applyPolicyRulesForPodAndFamily h i (State.new k) = .ok () s) :
    ∃ s₀ s₁ s₂ s₃ es, Stages h i k s₀ s₁ s₂ s₃ s ∧ MainFlush h i s₀ es s₁ := by
  unfold applyPolicyRulesForPodAndFamily cleanup at hs
  simp only [bind_eq_ok, wrapErr_eq_ok] at hs
  obtain ⟨_, s₁, hmain, _, s₂, hfilter, _, s₃, hnat, hchains⟩ := hs
  have hcommit := hmain
  unfold commitRules at hcommit
  rw [bind_eq_ok] at hcommit
  obtain ⟨_, sq, hqueue, hflush⟩ := hcommit
  rw [wrapErr_eq_ok] at hflush
  obtain ⟨s₀, es, hst⟩ := queueRules_staged wf hqueue
  obtain ⟨-, rfl⟩ := flush_eq_ok hflush
  obtain ⟨tables, ops, htables, hq, hm⟩ := hst.messages
  refine ⟨s₀, _, s₂, s₃, es, ⟨hst.legacy, hmain, hfilter, hnat, hchains⟩, hst.exec,
    ⟨tables, ops, htables, hq, ?_⟩, rfl, hst.rules, hst.sets, hst.chains, hst.requested⟩
  change sq.kernel.commit sq.messages = _
  rw [hst.kernel, hm]

/-! ### Other tables -/

/-- The daemon's tables. -/
def managedNames : List Str := [filterTableName, natTableName]

theorem contains_managedNames (t : Str) : managedNames.contains t = isManaged t := by
  simp only [managedNames, List.contains_cons, List.contains_nil, Bool.or_false]
  rfl

/-- The message deletes a chain or a set. -/
def Op.removes : Op → Bool
  | .delChain _ _ => true
  | .delSet _ _ => true
  | _ => false

/-- What a call queues is in its table, and deletes no chain and no set. -/
theorem Event.Queues.table {k : Kernel} {e : Event} {ops : List Op} (hq : e.Queues k ops) :
    ∀ op ∈ ops, op.table = e.table ∧ op.removes = false := by
  intro op hop
  cases hq.sends op hop with
  | chain c => exact ⟨rfl, rfl⟩
  | set s els fresh => exact ⟨rfl, rfl⟩
  | addElements s els fresh added => exact ⟨rfl, rfl⟩
  | deleteElements s els fresh deleted => exact ⟨rfl, rfl⟩
  | rule r action force isNew => cases action <;> exact ⟨rfl, rfl⟩
  | delRule r action force isNew x hx =>
    have hmem : x ∈ k.getRules r.table r.chain := List.mem_of_find?_eq_some hx
    obtain ⟨y, hy, rfl⟩ := List.mem_map.1 hmem
    exact ⟨(Rule.inChain_iff.1 (List.mem_filter.1 hy).2).1, rfl⟩

/-- What holds of the messages of every call. -/
theorem Queued.forall_mem {k : Kernel} {es : List Event} {ops : List Op} (hq : Queued k es ops)
    {P : Op → Prop} (hP : ∀ e ∈ es, ∀ ops', e.Queues k ops' → ∀ op ∈ ops', P op) :
    ∀ op ∈ ops, P op := by
  induction es generalizing ops with
  | nil =>
    obtain ⟨_, ⟨⟩, rfl⟩ := hq
    intro op hop
    cases hop
  | cons e es ih =>
    obtain ⟨ops₁, ops₂, h₁, h₂, rfl⟩ := hq.cons_inv
    intro op hop
    rcases List.mem_append.1 hop with hop | hop
    · exact hP e (List.mem_cons_self ..) ops₁ h₁ op hop
    · exact ih h₂ (fun e' he' => hP e' (List.mem_cons_of_mem _ he')) op hop

/-- Chains and sets that no message deletes stay. -/
theorem Kernel.objects_subset_commit : ∀ {ops : List Op}, (∀ op ∈ ops, op.removes = false) →
    ∀ k : Kernel, k.chains ⊆ (k.commit ops).chains ∧ k.sets ⊆ (k.commit ops).sets
  | [], _, _ => ⟨List.Subset.refl _, List.Subset.refl _⟩
  | op :: ops, h, k => by
    obtain ⟨hchains, hsets⟩ :=
      objects_subset_commit (fun o ho => h o (List.mem_cons_of_mem _ ho)) (k.apply op)
    have hop := h op (List.mem_cons_self ..)
    have happly : k.chains ⊆ (k.apply op).chains ∧ k.sets ⊆ (k.apply op).sets := by
      cases op with
      | addChain c =>
        rw [Kernel.apply]
        split
        · exact ⟨List.Subset.refl _, List.Subset.refl _⟩
        · exact ⟨List.subset_append_left .., List.Subset.refl _⟩
      | addSet x =>
        rw [Kernel.apply]
        split
        · exact ⟨List.Subset.refl _, List.Subset.refl _⟩
        · exact ⟨List.Subset.refl _, List.subset_append_left ..⟩
      | addTable t =>
        rw [Kernel.apply]
        split <;> exact ⟨List.Subset.refl _, List.Subset.refl _⟩
      | delChain t c => cases hop
      | delSet t n => cases hop
      | _ => exact ⟨List.Subset.refl _, List.Subset.refl _⟩
    exact ⟨List.Subset.trans happly.1 hchains, List.Subset.trans happly.2 hsets⟩

/-- Messages in the daemon's tables create no other table. -/
theorem Kernel.mem_tables_commit {t : Str} (ht : isManaged t = false) : ∀ {ops : List Op},
    (∀ op ∈ ops, isManaged op.table = true) → ∀ k : Kernel,
      (t ∈ (k.commit ops).tables ↔ t ∈ k.tables)
  | [], _, _ => Iff.rfl
  | op :: ops, h, k => by
    rw [Kernel.commit_cons, mem_tables_commit ht fun o ho => h o (List.mem_cons_of_mem _ ho)]
    have hop := h op (List.mem_cons_self ..)
    cases op with
    | addTable t' =>
      rw [Kernel.apply]
      split
      · rfl
      · have hne : t ≠ t' := by
          rintro rfl
          rw [show (Op.addTable t).table = t from rfl, ht] at hop
          cases hop
        rw [List.mem_append, List.mem_singleton, or_iff_left hne]
    | addChain c =>
      rw [Kernel.apply]
      split <;> rfl
    | addSet x =>
      rw [Kernel.apply]
      split <;> rfl
    | _ => rfl

/-- Every table but the daemon's is as it was. -/
structure OthersUntouched (k k' : Kernel) : Prop where
  contents : k.AgreeOutside managedNames k'
  tables : ∀ t, isManaged t = false → (t ∈ k'.tables ↔ t ∈ k.tables)

theorem OthersUntouched.refl (k : Kernel) : OthersUntouched k k := ⟨.refl _ _, fun _ _ => Iff.rfl⟩

/-- Batches for the daemon's tables leave the others alone. -/
theorem OthersUntouched.commit {k k' : Kernel} (hk : OthersUntouched k k') {ops : List Op}
    (hops : ∀ op ∈ ops, isManaged op.table = true) : OthersUntouched k (k'.commit ops) where
  contents := by
    refine hk.contents.commit fun op hop => ?_
    rw [contains_managedNames]
    exact hops op hop
  tables t ht := (Kernel.mem_tables_commit ht hops k').trans (hk.tables t ht)

theorem OthersUntouched.cleanupRules {k : Kernel} {h : Host} {table : Str} {s s' : State} {u : Unit}
    (hk : OthersUntouched k s.kernel) (ht : isManaged table = true) (hm : s.messages = [])
    (hs : cleanupRules h table s = .ok u s') : OthersUntouched k s'.kernel := by
  obtain ⟨-, q, rfl⟩ := cleanupRules_commits hm hs
  refine hk.commit fun op hop => ?_
  rcases List.mem_append.1 hop with hop | hop
  · obtain ⟨c, n, rfl⟩ := mem_staleChainOps hop
    exact ht
  · obtain ⟨n, rfl, -⟩ := mem_staleSetOps hop
    exact ht

theorem OthersUntouched.cleanupChains {k : Kernel} {h : Host} {s s' : State} {u : Unit}
    (hk : OthersUntouched k s.kernel) (hm : s.messages = [])
    (hs : cleanupChains h s = .ok u s') : OthersUntouched k s'.kernel := by
  obtain ⟨-, q, rfl⟩ := cleanupChains_commits hm hs
  refine hk.commit fun op hop => ?_
  obtain ⟨t, c, rfl, ht, -⟩ := mem_emptyOps hop
  rcases ht with rfl | rfl
  · exact show isManaged filterTableName = true by decide
  · exact show isManaged natTableName = true by decide

/-! ### What the cleanup deletes -/

/-- The keys of the tracking maps tell the objects of the daemon's tables apart. -/
theorem objectKey_inj {t t' n n' : Str} (ht : isManaged t = true) (ht' : isManaged t' = true)
    (hkey : objectKey t n = objectKey t' n') : t = t' ∧ n = n' := by
  have hcases : ∀ {t : Str}, isManaged t = true → t = filterTableName ∨ t = natTableName := by
    intro t ht
    rw [isManaged, Bool.or_eq_true, beq_iff_eq, beq_iff_eq] at ht
    exact ht
  -- the tables' names differ in a byte before the end of the shorter one
  have hbyte : ∀ n n' : Str, objectKey filterTableName n ≠ objectKey natTableName n' := by
    intro n n' h
    have h20 := congrArg (fun l : Str => l[20]?) h
    exact absurd (show some (0x66 : UInt8) = some 0x6e from h20) (by decide)
  rcases hcases ht with rfl | rfl <;> rcases hcases ht' with rfl | rfl
  · exact ⟨rfl, List.append_cancel_left hkey⟩
  · exact absurd hkey (hbyte n n')
  · exact absurd hkey.symm (hbyte n' n)
  · exact ⟨rfl, List.append_cancel_left hkey⟩

/-- `cleanupRules` keeps the chains, and of the sets of its table those that were asked for. -/
theorem cleanupRules_sets {h : Host} {table : Str} {s s' : State} {u : Unit} (hm : s.messages = [])
    (hs : cleanupRules h table s = .ok u s') : s'.kernel.chains = s.kernel.chains ∧
      (∀ x ∈ s'.kernel.sets, x ∈ s.kernel.sets ∧
        (x.table = table → x.anonymous = false → objectKey x.table x.name ∈ s.sets)) ∧
      ∀ x ∈ s.kernel.sets, x ∉ s'.kernel.sets →
        x.table = table ∧ objectKey x.table x.name ∉ s.sets := by
  obtain ⟨-, q, rfl⟩ := cleanupRules_commits hm hs
  change (s.kernel.commit (staleOps h table s)).chains = _ ∧
    (∀ x ∈ (s.kernel.commit (staleOps h table s)).sets, _) ∧
    ∀ x ∈ s.kernel.sets, x ∉ (s.kernel.commit (staleOps h table s)).sets → _
  rw [Kernel.commit_deletes_chains isDelete_of_mem_staleOps,
    Kernel.commit_deletes_sets isDelete_of_mem_staleOps]
  -- chains stay, a set stays only if tracked, and what goes was not tracked
  refine ⟨List.filter_eq_self.2 fun c _ => ?_, fun x hx => ?_, fun x hx hgone => ?_⟩
  · rw [Bool.not_eq_true', List.any_eq_false]
    intro op hop
    rcases List.mem_append.1 hop with hop | hop
    · obtain ⟨c', n, rfl⟩ := mem_staleChainOps hop
      exact Bool.false_ne_true
    · obtain ⟨n, rfl, -⟩ := mem_staleSetOps hop
      exact Bool.false_ne_true
  · obtain ⟨hx, hkept⟩ := List.mem_filter.1 hx
    refine ⟨hx, fun ht hanon => ?_⟩
    by_contra hstale
    rw [Bool.not_eq_true', List.any_eq_false] at hkept
    refine hkept (.delSet x.table x.name) (List.mem_append_right _ (List.mem_flatMap.2
      ⟨x, List.mem_filter.2 ⟨hx, beq_iff_eq.2 ht⟩, ?_⟩)) (by simp [Op.deletesSet])
    have hcond : (!s.sets.contains (objectKey x.table x.name) && !x.anonymous) = true := by
      rw [hanon, Bool.not_false, Bool.and_true, Bool.not_eq_true', ← Bool.not_eq_true,
        List.contains_iff_mem]
      exact hstale
    rw [staleSetOps, if_pos hcond]
    exact List.mem_singleton_self _
  · rw [List.mem_filter, not_and, Bool.not_eq_true', Bool.not_eq_false, List.any_eq_true] at hgone
    obtain ⟨op, hop, hdel⟩ := hgone hx
    rcases List.mem_append.1 hop with hop | hop
    · obtain ⟨c', n, rfl⟩ := mem_staleChainOps hop
      cases hdel
    · obtain ⟨n, rfl, hkey⟩ := mem_staleSetOps hop
      rw [Op.deletesSet, Bool.and_eq_true, beq_iff_eq, beq_iff_eq] at hdel
      rw [hdel.1, hdel.2]
      exact ⟨rfl, hkey⟩

/-- `cleanupChains` keeps the sets, and of the daemon's chains those that were asked for and those
with rules. -/
theorem cleanupChains_chains {h : Host} {s s' : State} {u : Unit} (hm : s.messages = [])
    (hs : cleanupChains h s = .ok u s') : s'.kernel.sets = s.kernel.sets ∧
      (∀ c ∈ s'.kernel.chains, c ∈ s.kernel.chains ∧ (isManaged c.table = true →
        objectKey c.table c.name ∈ s.chains ∨ s.kernel.getRules c.table c.name ≠ [])) ∧
      ∀ c ∈ s.kernel.chains, c ∉ s'.kernel.chains →
        objectKey c.table c.name ∉ s.chains ∧ s.kernel.getRules c.table c.name = [] := by
  obtain ⟨-, q, rfl⟩ := cleanupChains_commits hm hs
  change (s.kernel.commit (emptyOps s)).sets = _ ∧
    (∀ c ∈ (s.kernel.commit (emptyOps s)).chains, _) ∧
    ∀ c ∈ s.kernel.chains, c ∉ (s.kernel.commit (emptyOps s)).chains → _
  rw [Kernel.commit_deletes_chains isDelete_of_mem_emptyOps,
    Kernel.commit_deletes_sets isDelete_of_mem_emptyOps]
  -- sets stay, a chain stays if tracked or not empty, and what goes was neither
  refine ⟨List.filter_eq_self.2 fun x _ => ?_, fun c hc => ?_, fun c hc hgone => ?_⟩
  · rw [Bool.not_eq_true', List.any_eq_false]
    intro op hop
    obtain ⟨t, c, rfl, -⟩ := mem_emptyOps hop
    exact Bool.false_ne_true
  · obtain ⟨hc, hkept⟩ := List.mem_filter.1 hc
    refine ⟨hc, fun ht => ?_⟩
    by_contra hnot
    rw [not_or, not_not] at hnot
    rw [Bool.not_eq_true', List.any_eq_false] at hkept
    refine hkept (.delChain c.table c.name) (List.mem_flatMap.2 ⟨c, hc, ?_⟩)
      (by simp [Op.deletesChain])
    have hcond : (!s.chains.contains (objectKey c.table c.name) &&
        (s.kernel.getRules c.table c.name).isEmpty) = true := by
      rw [hnot.2, List.isEmpty_nil, Bool.and_true, Bool.not_eq_true', ← Bool.not_eq_true,
        List.contains_iff_mem]
      exact hnot.1
    rw [isManaged, Bool.or_eq_true, beq_iff_eq, beq_iff_eq] at ht
    rw [emptyChainOps, if_pos ⟨ht, hcond⟩]
    exact List.mem_singleton_self _
  · rw [List.mem_filter, not_and, Bool.not_eq_true', Bool.not_eq_false, List.any_eq_true] at hgone
    obtain ⟨op, hop, hdel⟩ := hgone hc
    obtain ⟨t, n, rfl, -, hkey, hempty⟩ := mem_emptyOps hop
    rw [Op.deletesChain, Bool.and_eq_true, beq_iff_eq, beq_iff_eq] at hdel
    rw [hdel.1, hdel.2]
    exact ⟨hkey, hempty⟩

/-! ### Rules that remain -/

/-- The rule is, up to what keys leave out, one that was asked for. -/
def Remains (es : List Event) (r : Rule) : Prop := ∃ q ∈ rulesOf es, q.identity = r.listed.identity

namespace Remains

variable {es : List Event} {r : Rule}

theorem table_eq {q : Rule} (hq : q.identity = r.listed.identity) :
    q.table = r.table ∧ q.chain = r.chain := by
  simp only [Rule.identity, Prod.mk.injEq] at hq
  exact ⟨hq.1, hq.2.1⟩

/-- It looks up sets that were asked for. -/
theorem lookup (hr : Remains es r) (hsound : Sound es) {n : Str} (hn : r.looksUp n = true) :
    ∃ x ∈ setsOf es, x.table = r.table ∧ x.name = n := by
  obtain ⟨q, hq, hident⟩ := hr
  obtain ⟨y, hy, hyn⟩ := List.any_eq_true.1 hn
  have hlisted := Rule.mem_lookups_of_identity hident.symm (Rule.lookups_listed hy)
  obtain ⟨x, hx, hxt, hname⟩ := hsound.resolved q hq _ hlisted
  refine ⟨x, hx, hxt.trans (table_eq hident).1, ?_⟩
  rw [← beq_iff_eq.1 hyn]
  exact (congrArg Prod.fst hname).symm

/-- It is in a chain that was asked for. -/
theorem chain (hr : Remains es r) (hgrounded : ∀ q ∈ rulesOf es, q.Grounded (chainsOf es)) :
    KnownChain (chainsOf es) r.table r.chain := by
  obtain ⟨q, hq, hident⟩ := hr
  obtain ⟨ht, hc⟩ := table_eq hident
  rw [← ht, ← hc]
  exact (hgrounded q hq).1

/-- It jumps to chains that were asked for. -/
theorem target (hr : Remains es r) (hgrounded : ∀ q ∈ rulesOf es, q.Grounded (chainsOf es))
    {n : Str} (hn : ruleReferencesChain r n = true) : KnownChain (chainsOf es) r.table n := by
  obtain ⟨q, hq, hident⟩ := hr
  obtain ⟨e, he, hjump⟩ := List.any_eq_true.1 hn
  rw [Bool.or_eq_true, beq_iff_eq, beq_iff_eq] at hjump
  have hexprs : q.exprs.filter Expr.isHashed = r.listed.exprs.filter Expr.isHashed := by
    simp only [Rule.identity, Prod.mk.injEq] at hident
    exact hident.2.2.2
  -- verdicts are listed as they are, and are part of the key
  have hmem : e ∈ q.exprs := by
    refine List.mem_of_mem_filter (l := q.exprs) (p := Expr.isHashed) ?_
    rw [hexprs]
    rcases hjump with rfl | rfl
    · exact List.mem_filter.2 ⟨List.mem_map.2 ⟨_, he, rfl⟩, rfl⟩
    · exact List.mem_filter.2 ⟨List.mem_map.2 ⟨_, he, rfl⟩, rfl⟩
  rw [← (table_eq hident).1]
  refine (hgrounded q hq).2 n (List.mem_filterMap.2 ⟨e, hmem, ?_⟩)
  rcases hjump with rfl | rfl
  · rfl
  · rfl

end Remains

/-- Keys tell the committed rules of the daemon's tables from the ones that were asked for. -/
def Told (h : Host) (es : List Event) (k : Kernel) : Prop :=
  ∀ r ∈ k.rules, isManaged r.table = true → ∀ q ∈ rulesOf es,
    hashRule h q = hashRule h r.listed → q.identity = r.listed.identity

/-- The tracking maps hold what was asked for, and nothing is queued. -/
structure Tracked (h : Host) (es : List Event) (s : State) : Prop where
  messages : s.messages = []
  rules : s.rules = (rulesOf es).map (hashRule h)
  sets : s.sets = (setsOf es).map fun x => objectKey x.table x.name
  chains : s.chains = (chainsOf es).map fun c => objectKey c.table c.name

theorem Tracked.cleaned {h : Host} {es : List Event} {s s' : State} (ht : Tracked h es s)
    (hc : Cleaned s s') : Tracked h es s' :=
  ⟨hc.messages, hc.rules.trans ht.rules, hc.sets.trans ht.sets, hc.chains.trans ht.chains⟩

/-- A key in the map stands for a set that was asked for. -/
theorem Tracked.set_mem {h : Host} {es : List Event} {s : State} (ht : Tracked h es s)
    (hsound : Sound es) {t n : Str} (hm : isManaged t = true) (hkey : objectKey t n ∈ s.sets) :
    ∃ x ∈ setsOf es, x.table = t ∧ x.name = n := by
  rw [ht.sets] at hkey
  obtain ⟨x, hx, hxk⟩ := List.mem_map.1 hkey
  obtain ⟨hxt, hxn⟩ := objectKey_inj (hsound.set x hx) hm hxk
  exact ⟨x, hx, hxt, hxn⟩

/-- A key in the map stands for a chain that was asked for. -/
theorem Tracked.chain_mem {h : Host} {es : List Event} {s : State} (ht : Tracked h es s)
    (hsound : Sound es) {t n : Str} (hm : isManaged t = true) (hkey : objectKey t n ∈ s.chains) :
    KnownChain (chainsOf es) t n := by
  rw [ht.chains] at hkey
  obtain ⟨c, hc, hck⟩ := List.mem_map.1 hkey
  obtain ⟨hct, hcn⟩ := objectKey_inj (hsound.chain c hc) hm hck
  exact ⟨c, hc, hct, hcn⟩

/-- A rule whose key was remembered remains for a reason. -/
theorem Tracked.remains {h : Host} {es : List Event} {s : State} (ht : Tracked h es s)
    (htold : Told h es s.kernel) {r : Rule} (hr : r ∈ s.kernel.rules)
    (hm : isManaged r.table = true) (hkey : hashRule h r.listed ∈ s.rules) : Remains es r := by
  rw [ht.rules] at hkey
  obtain ⟨q, hq, hqk⟩ := List.mem_map.1 hkey
  exact ⟨q, hq, htold r hr hm q hq hqk⟩

/-! ### Objects in use -/

/-- The daemon's sets and chains that are gone are not referred to by a rule that remains. -/
structure SparesReferenced (k k' : Kernel) : Prop where
  sets : ∀ x ∈ k.sets, isManaged x.table = true → x ∉ k'.sets →
    ∀ r ∈ k'.rules, r.table = x.table → r.looksUp x.name = false
  chains : ∀ c ∈ k.chains, isManaged c.table = true → c ∉ k'.chains →
    (∀ r ∈ k'.rules, r.inChain c.table c.name = false) ∧
      ∀ r ∈ k'.rules, r.table = c.table → ruleReferencesChain r c.name = false

section Spares

variable {h : Host} {es : List Event} {s s' : State} (ht : Tracked h es s)
  (htold : Told h es s.kernel) (hsound : Sound es)
include ht htold hsound

/-- No set that a rule looks up is deleted. -/
theorem sparesReferenced_cleanupRules (wf : s.kernel.WF) {table : Str}
    (hs : cleanupRules h table s = .ok () s') : SparesReferenced s.kernel s'.kernel := by
  obtain ⟨hchains, -, hsets⟩ := cleanupRules_sets ht.messages hs
  obtain ⟨-, hrules⟩ := cleanupRules_ok wf ht.messages hs
  refine ⟨fun x hx hm hgone r hr hrt => ?_, fun c hc _ hgone => ?_⟩
  · obtain ⟨hxt, hkey⟩ := hsets x hx hgone
    rw [hrules] at hr
    obtain ⟨hr, hkept⟩ := List.mem_filter.1 hr
    rw [hrt, hxt, beq_self_eq_true, Bool.true_and, Bool.not_not, List.contains_iff_mem] at hkept
    have hremains := ht.remains htold hr (by rw [hrt]; exact hm) hkept
    by_contra hlook
    rw [Bool.not_eq_false] at hlook
    obtain ⟨y, hy, hyt, hyn⟩ := hremains.lookup hsound hlook
    refine hkey ?_
    rw [ht.sets, ← hyn, ← hrt, ← hyt]
    exact List.mem_map_of_mem hy
  · rw [hchains] at hgone
    exact absurd hc hgone

omit hsound in
/-- No chain that holds a rule or that a rule jumps to is deleted. -/
theorem sparesReferenced_cleanupChains (hgrounded : ∀ q ∈ rulesOf es, q.Grounded (chainsOf es))
    (hkept : ∀ r ∈ s.kernel.rules, isManaged r.table = true → hashRule h r.listed ∈ s.rules)
    (hs : cleanupChains h s = .ok () s') : SparesReferenced s.kernel s'.kernel := by
  obtain ⟨hsets, -, hchains⟩ := cleanupChains_chains ht.messages hs
  obtain ⟨-, hrules⟩ := cleanupChains_ok ht.messages hs
  refine ⟨fun x hx _ hgone => ?_, fun c hc hm hgone => ?_⟩
  · rw [hsets] at hgone
    exact absurd hx hgone
  · obtain ⟨hkey, hempty⟩ := hchains c hc hgone
    rw [hrules]
    refine ⟨emptyChain_of_getRules (by rw [hempty]; rfl), fun r hr hrt => ?_⟩
    have hm' : isManaged r.table = true := by rw [hrt]; exact hm
    by_contra hjump
    rw [Bool.not_eq_false] at hjump
    obtain ⟨y, hy, hyt, hyn⟩ := (ht.remains htold hr hm' (hkept r hr hm')).target hgrounded hjump
    refine hkey ?_
    rw [ht.chains, ← hyn, ← hrt, ← hyt]
    exact List.mem_map_of_mem hy

end Spares

/-! ### The whole run -/

/-- What is left in the daemon's tables was asked for. -/
structure Swept (h : Host) (es : List Event) (k : Kernel) : Prop where
  rules : ∀ r ∈ k.rules, isManaged r.table = true →
    ∃ q ∈ rulesOf es, hashRule h q = hashRule h r.listed
  sets : ∀ x ∈ k.sets, isManaged x.table = true → x.anonymous = false →
    ∃ y ∈ setsOf es, y.table = x.table ∧ y.name = x.name
  chains : ∀ c ∈ k.chains, isManaged c.table = true → KnownChain (chainsOf es) c.table c.name

/-- No two rules involved in a run have the same key: those that are asked for, as built and as
listed back, and those that were there. -/
def KeysDistinct (h : Host) (k : Kernel) (s : State) : Prop :=
  NoCollision h (s.requested ++ s.requested.map Rule.listed ++ k.managedRules)

instance (h : Host) (k : Kernel) (s : State) : Decidable (KeysDistinct h k s) :=
  inferInstanceAs (Decidable (NoCollision h _))

/-- A rule of the daemon's tables behind the main flush was asked for or was there. -/
theorem exists_content_of_main {h : Host} {i : Input} {k : Kernel} {s₁ : State} (wf : k.WF)
    (hs : commitRules h i (State.new k) = .ok () s₁) {r : Rule} (hr : r ∈ s₁.kernel.rules)
    (hm : isManaged r.table = true) :
    ∃ q, (q ∈ s₁.requested ∨ q ∈ k.rules ∧ q.table = r.table) ∧ q.content = r.content := by
  obtain ⟨es, -, -, -, -, -, hreq, hchain⟩ := commitRules_ok wf hs
  have hview : r.content ∈ s₁.kernel.chainRules r.table r.chain := by
    rw [Kernel.chainRules_eq]
    exact mem_inView.2 ⟨r, hr, ⟨rfl, rfl⟩, rfl⟩
  rw [hchain r.table hm, synced, List.mem_append, List.mem_append, List.mem_reverse] at hview
  have hadded : ∀ action, r.content ∈ inView r.table r.chain (addedBy action es) →
      ∃ q ∈ s₁.requested, q.content = r.content := by
    intro action hadd
    obtain ⟨q, hq, -, hqr⟩ := mem_inView.1 hadd
    obtain ⟨force, isNew, -, he⟩ := mem_addedBy.1 hq
    rw [hreq]
    exact ⟨q, mem_rulesOf.2 ⟨action, force, isNew, he⟩, hqr⟩
  rcases hview with (hins | hold) | hadd
  · obtain ⟨q, hq, hqr⟩ := hadded _ hins
    exact ⟨q, .inl hq, hqr⟩
  · obtain ⟨q, hq, ⟨hqt, -⟩, hqr⟩ := mem_inView.1 hold
    exact ⟨q, .inr ⟨List.mem_of_mem_filter hq, hqt⟩, hqr⟩
  · obtain ⟨q, hq, hqr⟩ := hadded _ hadd
    exact ⟨q, .inl hq, hqr⟩

/-- Without collisions the keys tell the rules. -/
theorem told_of_keysDistinct {h : Host} {i : Input} {k : Kernel} {s₁ : State} {es : List Event}
    (wf : k.WF) (hs : commitRules h i (State.new k) = .ok () s₁) (hreq : s₁.requested = rulesOf es)
    (hkeys : KeysDistinct h k s₁) : Told h es s₁.kernel := by
  have hnc : NoCollision h (s₁.requested ++ s₁.kernel.managedRules) := by
    refine NoCollision.of_erase hkeys fun x hx => ?_
    rcases List.mem_append.1 hx with hx | hx
    · exact ⟨x, List.mem_append_left _ (List.mem_append_left _ hx), rfl⟩
    · obtain ⟨r, hr, rfl⟩ := List.mem_map.1 hx
      obtain ⟨hr, hm⟩ := List.mem_filter.1 hr
      obtain ⟨q, hq, hqr⟩ := exists_content_of_main wf hs hr hm
      refine ⟨q.listed, ?_, hqr⟩
      rcases hq with hq | ⟨hq, hqt⟩
      · exact List.mem_append_left _ (List.mem_append_right _ (List.mem_map_of_mem hq))
      · refine List.mem_append_right _ (List.mem_map_of_mem (List.mem_filter.2 ⟨hq, ?_⟩))
        rw [hqt]
        exact hm
  intro r hr hm q hq hkey
  rw [← hreq] at hq
  exact hnc q (List.mem_append_left _ hq) r.listed
    (List.mem_append_right _ (List.mem_map_of_mem (List.mem_filter.2 ⟨hr, hm⟩))) hkey

theorem Told.subset {h : Host} {es : List Event} {k k' : Kernel} (ht : Told h es k)
    (hk : ∀ r ∈ k'.rules, r ∈ k.rules) : Told h es k' := fun r hr => ht r (hk r hr)

/-- The main flush adds to the daemon's tables. -/
theorem MainFlush.managed {h : Host} {i : Input} {s₀ s₁ : State} {es : List Event}
    (hf : MainFlush h i s₀ es s₁) : ∃ ops, s₁.kernel = s₀.kernel.commit ops ∧
      ∀ op ∈ ops, isManaged op.table = true ∧ op.removes = false := by
  obtain ⟨tables, ops, htables, hq, hk⟩ := hf.kernel
  have hsound := Render.sound_renderInput hf.exec
  refine ⟨tables ++ ops, hk, fun op hop => ?_⟩
  rcases List.mem_append.1 hop with hop | hop
  · obtain ⟨t, ht, rfl⟩ := htables op hop
    exact ⟨ht, rfl⟩
  · refine hq.forall_mem (P := fun op => isManaged op.table = true ∧ op.removes = false)
      (fun e he ops' hops' op hop => ?_) op hop
    obtain ⟨htable, hremoves⟩ := hops'.table op hop
    rw [htable]
    exact ⟨hsound.managed he, hremoves⟩

/-- What is known of the states of the cleanup. -/
structure Sweep (h : Host) (es : List Event) (s₁ s₂ s₃ s : State) : Prop where
  sound : Sound es
  grounded : ∀ q ∈ rulesOf es, q.Grounded (chainsOf es)
  wf₁ : s₁.kernel.WF
  wf₂ : s₂.kernel.WF
  tracked₁ : Tracked h es s₁
  tracked₂ : Tracked h es s₂
  tracked₃ : Tracked h es s₃
  told₁ : Told h es s₁.kernel
  told₂ : Told h es s₂.kernel
  told₃ : Told h es s₃.kernel
  kept : ∀ r ∈ s₃.kernel.rules, isManaged r.table = true → hashRule h r.listed ∈ s₃.rules
  rules : s.kernel.rules = s₃.kernel.rules
  requested : s.requested = rulesOf es

section Sweep

variable {h : Host} {i : Input} {k : Kernel} {s₀ s₁ s₂ s₃ s : State} {es : List Event}

theorem MainFlush.tracked (hf : MainFlush h i s₀ es s₁) : Tracked h es s₁ :=
  ⟨hf.messages, hf.rules, hf.sets, hf.chains⟩

/-- The rules that remain in the daemon's tables have remembered keys: each table's rules went
through the batch of that table. -/
theorem Stages.kept (wf : k.WF) (hst : Stages h i k s₀ s₁ s₂ s₃ s) (hf : MainFlush h i s₀ es s₁) :
    ∀ r ∈ s₃.kernel.rules, isManaged r.table = true → hashRule h r.listed ∈ s₃.rules := by
  obtain ⟨-, -, -, wf₁, -⟩ := commitRules_ok wf hst.main
  obtain ⟨hc₂, hr₂⟩ := cleanupRules_ok wf₁ hf.messages hst.filterRules
  obtain ⟨hc₃, hr₃⟩ := cleanupRules_ok (hc₂.wf wf₁) hc₂.messages hst.natRules
  intro r hr hm
  rw [hr₃] at hr
  obtain ⟨hr, hnat⟩ := List.mem_filter.1 hr
  rw [hr₂] at hr
  obtain ⟨-, hfilter⟩ := List.mem_filter.1 hr
  rw [isManaged, Bool.or_eq_true] at hm
  rw [hc₃.rules, hc₂.rules]
  rw [hc₂.rules] at hnat
  rcases hm with hm | hm
  · rw [hm, Bool.true_and, Bool.not_not, List.contains_iff_mem] at hfilter
    exact hfilter
  · rw [hm, Bool.true_and, Bool.not_not, List.contains_iff_mem] at hnat
    exact hnat

/-- The sets that remain in the daemon's tables were asked for: each outlived the batch of its own
table. -/
theorem Stages.sets_known (hst : Stages h i k s₀ s₁ s₂ s₃ s) (ht₁ : Tracked h es s₁)
    (ht₂ : Tracked h es s₂) (ht₃ : Tracked h es s₃) {x : NftSet} (hx : x ∈ s.kernel.sets)
    (hm : isManaged x.table = true) (hanon : x.anonymous = false) :
    objectKey x.table x.name ∈ s₁.sets := by
  obtain ⟨-, hset₂, -⟩ := cleanupRules_sets ht₁.messages hst.filterRules
  obtain ⟨-, hset₃, -⟩ := cleanupRules_sets ht₂.messages hst.natRules
  rw [(cleanupChains_chains ht₃.messages hst.chains).1] at hx
  obtain ⟨hx₂, hnat⟩ := hset₃ x hx
  obtain ⟨-, hfilter⟩ := hset₂ x hx₂
  rw [isManaged, Bool.or_eq_true, beq_iff_eq, beq_iff_eq] at hm
  rcases hm with hm | hm
  · exact hfilter hm hanon
  · rw [ht₁.sets, ← ht₂.sets]
    exact hnat hm hanon

/-- The states of the cleanup remember what was asked for. -/
theorem Stages.tracked (wf : k.WF) (hst : Stages h i k s₀ s₁ s₂ s₃ s)
    (hf : MainFlush h i s₀ es s₁) : Tracked h es s₂ ∧ Tracked h es s₃ := by
  obtain ⟨-, -, -, wf₁, -⟩ := commitRules_ok wf hst.main
  obtain ⟨hc₂, -⟩ := cleanupRules_ok wf₁ hf.messages hst.filterRules
  have ht₂ := hf.tracked.cleaned hc₂
  obtain ⟨hc₃, -⟩ := cleanupRules_ok (hc₂.wf wf₁) ht₂.messages hst.natRules
  exact ⟨ht₂, ht₂.cleaned hc₃⟩

/-- The last flush deletes chains only. -/
theorem Stages.rules_requested (wf : k.WF) (hst : Stages h i k s₀ s₁ s₂ s₃ s)
    (hf : MainFlush h i s₀ es s₁) :
    s.kernel.rules = s₃.kernel.rules ∧ s.requested = rulesOf es := by
  obtain ⟨-, -, -, wf₁, -⟩ := commitRules_ok wf hst.main
  obtain ⟨hc₂, -⟩ := cleanupRules_ok wf₁ hf.messages hst.filterRules
  obtain ⟨hc₃, -⟩ := cleanupRules_ok (hc₂.wf wf₁) hc₂.messages hst.natRules
  obtain ⟨hc, hr⟩ := cleanupChains_ok hc₃.messages hst.chains
  exact ⟨hr, (hc.requested.trans (hc₃.requested.trans hc₂.requested)).trans hf.requested⟩

/-- The flushes of the cleanup. -/
theorem Stages.sweep (wf : k.WF) (hst : Stages h i k s₀ s₁ s₂ s₃ s) (hf : MainFlush h i s₀ es s₁)
    (hkeys : KeysDistinct h k s) : Sweep h es s₁ s₂ s₃ s := by
  obtain ⟨-, -, -, wf₁, -⟩ := commitRules_ok wf hst.main
  have ht₁ := hf.tracked
  obtain ⟨ht₂, ht₃⟩ := hst.tracked wf hf
  obtain ⟨hr, hreq⟩ := hst.rules_requested wf hf
  obtain ⟨hc₂, hr₂⟩ := cleanupRules_ok wf₁ ht₁.messages hst.filterRules
  obtain ⟨-, hr₃⟩ := cleanupRules_ok (hc₂.wf wf₁) ht₂.messages hst.natRules
  have htold₁ : Told h es s₁.kernel := by
    refine told_of_keysDistinct wf hst.main hf.requested ?_
    unfold KeysDistinct
    rw [hf.requested, ← hreq]
    exact hkeys
  have htold₂ : Told h es s₂.kernel := htold₁.subset fun r hr => by
    rw [hr₂] at hr
    exact List.mem_of_mem_filter hr
  have htold₃ : Told h es s₃.kernel := htold₂.subset fun r hr => by
    rw [hr₃] at hr
    exact List.mem_of_mem_filter hr
  exact ⟨Render.sound_renderInput hf.exec, Render.grounded_renderInput hf.exec, wf₁, hc₂.wf wf₁,
    ht₁, ht₂, ht₃, htold₁, htold₂, htold₃, hst.kept wf hf, hr, hreq⟩

/-- **What is left was asked for.** -/
theorem Sweep.swept (hw : Sweep h es s₁ s₂ s₃ s) (hst : Stages h i k s₀ s₁ s₂ s₃ s) :
    Swept h es s.kernel := by
  obtain ⟨-, hchains, -⟩ := cleanupChains_chains hw.tracked₃.messages hst.chains
  refine ⟨fun r hr hm => ?_, fun x hx hm hanon => ?_, fun c hc hm => ?_⟩
  · rw [hw.rules] at hr
    have hkey := hw.kept r hr hm
    rw [hw.tracked₃.rules] at hkey
    exact List.mem_map.1 hkey
  · exact hw.tracked₁.set_mem hw.sound hm
      (hst.sets_known hw.tracked₁ hw.tracked₂ hw.tracked₃ hx hm hanon)
  · obtain ⟨-, hkey⟩ := hchains c hc
    rcases hkey hm with hkey | hrules
    · exact hw.tracked₃.chain_mem hw.sound hm hkey
    · -- a chain with rules has a rule that was asked for
      obtain ⟨x, hx⟩ := List.exists_mem_of_ne_nil _ hrules
      obtain ⟨r, hr, rfl⟩ := List.mem_map.1 hx
      obtain ⟨hr, hin⟩ := List.mem_filter.1 hr
      obtain ⟨hrt, hrc⟩ := Rule.inChain_iff.1 hin
      have hm' : isManaged r.table = true := by rw [hrt]; exact hm
      rw [← hrt, ← hrc]
      exact (hw.tracked₃.remains hw.told₃ hr hm' (hw.kept r hr hm')).chain hw.grounded

theorem MainFlush.sparesReferenced (hf : MainFlush h i s₀ es s₁) :
    SparesReferenced s₀.kernel s₁.kernel := by
  obtain ⟨ops, hk₁, hops⟩ := hf.managed
  obtain ⟨hchains, hsets⟩ :=
    Kernel.objects_subset_commit (fun op hop => (hops op hop).2) s₀.kernel
  rw [hk₁]
  exact ⟨fun x hx _ hgone => absurd (hsets hx) hgone, fun c hc _ hgone => absurd (hchains hc) hgone⟩

/-- No stage touches other tables. -/
theorem Sweep.othersUntouched (hw : Sweep h es s₁ s₂ s₃ s) (hst : Stages h i k s₀ s₁ s₂ s₃ s)
    (hf : MainFlush h i s₀ es s₁) : OthersUntouched s₀.kernel s.kernel := by
  obtain ⟨ops, hk₁, hops⟩ := hf.managed
  have h₁ : OthersUntouched s₀.kernel s₁.kernel := by
    rw [hk₁]
    exact (OthersUntouched.refl _).commit fun op hop => (hops op hop).1
  have h₂ := h₁.cleanupRules (by decide) hw.tracked₁.messages hst.filterRules
  have h₃ := h₂.cleanupRules (by decide) hw.tracked₂.messages hst.natRules
  exact h₃.cleanupChains hw.tracked₃.messages hst.chains

/-- **A run leaves nothing stale and deletes nothing in use.** -/
theorem nothing_stale_left (wf : k.WF)
    (hs : applyPolicyRulesForPodAndFamily h i (State.new k) = .ok () s)
    (hkeys : KeysDistinct h k s) :
    ∃ s₀ s₁ s₂ s₃ es, Stages h i k s₀ s₁ s₂ s₃ s ∧
      Render.Exec (Render.renderInput h.byteOrder i) es () ∧ s.requested = rulesOf es ∧
      Swept h es s.kernel ∧
      (SparesReferenced s₀.kernel s₁.kernel ∧ SparesReferenced s₁.kernel s₂.kernel ∧
        SparesReferenced s₂.kernel s₃.kernel ∧ SparesReferenced s₃.kernel s.kernel) ∧
      OthersUntouched s₀.kernel s.kernel := by
  obtain ⟨s₀, s₁, s₂, s₃, es, hst, hf⟩ := exists_stages wf hs
  have hw := hst.sweep wf hf hkeys
  refine ⟨s₀, s₁, s₂, s₃, es, hst, hf.exec, hw.requested, hw.swept hst,
    ⟨hf.sparesReferenced, ?_, ?_, ?_⟩, hw.othersUntouched hst hf⟩
  · exact sparesReferenced_cleanupRules hw.tracked₁ hw.told₁ hw.sound hw.wf₁ hst.filterRules
  · exact sparesReferenced_cleanupRules hw.tracked₂ hw.told₂ hw.sound hw.wf₂ hst.natRules
  · exact sparesReferenced_cleanupChains hw.tracked₃ hw.told₃ hw.grounded hw.kept hst.chains

end Sweep

/-- A pod with a policy that lets everything in. -/
def openPolicyInput : Input :=
  podInput [str "net1"]
    (onePolicy (ingressPolicy (str "a") isDNS1123Subdomain_a (str "net1") [⟨[], []⟩]))

set_option maxRecDepth 100000 in
/-- The policy is deleted: its chains go. -/
theorem deleted_policy_is_swept : ∃ s₁ s₂,
    applyPolicyRulesForPodAndFamily Host.reliable openPolicyInput (State.new Kernel.empty) =
      .ok () s₁ ∧
    applyPolicyRulesForPodAndFamily Host.reliable (podInput [str "net1"] noPolicies)
      (State.new s₁.kernel) = .ok () s₂ ∧
    s₂.kernel.chains.length < s₁.kernel.chains.length ∧ ∃ es, Swept Host.reliable es s₂.kernel := by
  have hrun : (outcome Host.reliable openPolicyInput Kernel.empty).any (fun s₁ =>
      (outcome Host.reliable (podInput [str "net1"] noPolicies) s₁.kernel).any fun s₂ =>
        decide (KeysDistinct Host.reliable s₁.kernel s₂ ∧
          s₂.kernel.chains.length < s₁.kernel.chains.length)) = true := by
    decide +kernel
  obtain ⟨s₁, hs₁, hrun⟩ := (Option.any_eq_true _ _).1 hrun
  obtain ⟨s₂, hs₂, hrun⟩ := (Option.any_eq_true _ _).1 hrun
  obtain ⟨hkeys, hless⟩ := of_decide_eq_true hrun
  rw [outcome_eq_some] at hs₁ hs₂
  obtain ⟨-, -, -, hwf, -⟩ := apply_ok Kernel.WF.empty hs₁
  obtain ⟨-, -, -, -, es, -, -, -, hswept, -⟩ := nothing_stale_left hwf hs₂ hkeys
  exact ⟨s₁, s₂, hs₁, hs₂, hless, es, hswept⟩

end MultiNetPolicy
