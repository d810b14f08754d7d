import MultiNetPolicy.Equiv.Contents
import MultiNetPolicy.Equiv.Order
import MultiNetPolicy.Equiv.Quiet

/-!
# The steady state

A run that needs no new set leaves the daemon's tables with exactly what it asked for (`InPlace`),
provided that its calls for one set want the same keys (`Input.SetsAgree`): each call compares the
wanted elements with the committed ones, so that two calls that disagree undo each other's elements
run after run.  From such a ruleset the next run queues nothing and deletes nothing.

* `inPlace_of_run`: what a run leaves.
* `InPlace.undisturbed`: what a run does to it.
-/

namespace MultiNetPolicy

open ByteString StateExcept

/-! ### Tables -/

/-- The table is there, or it is queued. -/
def State.HasTable (t : Str) (s : State) : Prop := t ∈ s.kernel.tables ∨ .addTable t ∈ s.messages

theorem State.HasTable.mono {t : Str} {s s' : State} (hs : s.HasTable t)
    (hk : s'.kernel = s.kernel) (hm : s.messages ⊆ s'.messages) : s'.HasTable t := by
  rcases hs with hs | hs
  · left
    rw [hk]
    exact hs
  · exact .inr (hm hs)

/-- A table is there or queued. -/
theorem addTable_hasTable {h : Host} {t : Str} {s s' : State} {u : Unit}
    (hs : addTable h t s = .ok u s') : s'.HasTable t := by
  unfold addTable at hs
  simp only [bind_eq_ok, wrapErr_eq_ok, Conn.listTableOfFamily, query_eq_ok] at hs
  obtain ⟨_, _, ⟨-, rfl, rfl⟩, hs⟩ := hs
  split at hs
  · rename_i ht
    obtain ⟨-, rfl⟩ := pure_eq_ok.1 hs
    exact .inl (List.contains_iff_mem.1 ht)
  · obtain rfl := modify_eq_ok.1 hs
    exact .inr (List.mem_append_right _ (List.mem_singleton_self _))

/-- Behind the main flush the daemon's tables exist. -/
theorem commitRules_tables {h : Host} {i : Input} {k : Kernel} {s : State} {u : Unit}
    (hs : commitRules h i (State.new k) = .ok u s) {t : Str} (ht : isManaged t = true) :
    t ∈ s.kernel.tables := by
  unfold commitRules queueRules bootstrapTables at hs
  simp only [bind_eq_ok, wrapErr_eq_ok] at hs
  obtain ⟨_, sq, ⟨_, s₁, hboot, hrender⟩, hflush⟩ := hs
  obtain ⟨-, rfl⟩ := flush_eq_ok hflush
  split at hboot
  · exact absurd hboot throw_ne_ok
  · simp only [bind_eq_ok, wrapErr_eq_ok] at hboot
    obtain ⟨_, s₀, -, _, s₂, hfilter, hnat⟩ := hboot
    -- the table was there, or its creation is queued
    have hsecond : s₁.HasTable t := by
      rw [isManaged, Bool.or_eq_true, beq_iff_eq, beq_iff_eq] at ht
      rcases ht with rfl | rfl
      · obtain ⟨q, ops, -, rfl⟩ := addTable_eq_ok hnat
        exact (addTable_hasTable hfilter).mono rfl (List.subset_append_left ..)
      · exact addTable_hasTable hnat
    obtain ⟨es, -, hadv⟩ := Render.run_ok hrender
    obtain ⟨ops, -, hm⟩ := hadv.messages
    have hall : sq.HasTable t := by
      refine hsecond.mono hadv.kernel ?_
      rw [hm]
      exact List.subset_append_left ..
    rcases hall with hmem | hqueued
    · exact Kernel.mem_tables_of_mem hmem
    · exact Kernel.mem_tables_of_addTable hqueued

/-! ### Chains -/

theorem Kernel.hasChain_mono {k k' : Kernel} (hsub : k.chains ⊆ k'.chains) {t c : Str}
    (hc : k.hasChain t c = true) : k'.hasChain t c = true := by
  obtain ⟨x, hx, hname⟩ := Kernel.hasChain_iff.1 hc
  exact Kernel.hasChain_iff.2 ⟨x, hsub hx, hname⟩

/-- A chain that a batch without deletions adds is there behind it. -/
theorem Kernel.hasChain_of_addChain {c : Chain} : ∀ {ops : List Op},
    (∀ op ∈ ops, op.removes = false) → .addChain c ∈ ops → ∀ k : Kernel,
      (k.commit ops).hasChain c.table c.name = true
  | op :: ops, hops, hop, k => by
    have hrest : ∀ o ∈ ops, o.removes = false := fun o ho => hops o (List.mem_cons_of_mem _ ho)
    rw [commit_cons]
    rcases List.mem_cons.1 hop with rfl | hop
    · refine hasChain_mono (objects_subset_commit hrest _).1 ?_
      rw [Kernel.apply]
      split
      · assumption
      · exact hasChain_iff.2 ⟨c, List.mem_append_right _ (List.mem_singleton_self c), rfl, rfl⟩
    · exact hasChain_of_addChain hrest hop _

/-! ### Sets -/

theorem Kernel.hasSet_mono {k k' : Kernel} (hsub : k.sets ⊆ k'.sets) {t n : Str}
    (hn : k.hasSet t n = true) : k'.hasSet t n = true := by
  obtain ⟨x, hx, hname⟩ := Kernel.hasSet_iff.1 hn
  exact Kernel.hasSet_iff.2 ⟨x, hsub hx, hname⟩

/-- The calls for the set `n` want the same keys. -/
def KeysAgree (es : List Event) (t n : Str) : Prop :=
  ∀ x els fresh y els' fresh', .set x els fresh ∈ es → .set y els' fresh' ∈ es →
    (x.table = t ∧ x.name = n) → (y.table = t ∧ y.name = n) → SameKeys els els'

/-- **Calls that agree leave what they want.** -/
theorem Queued.sameKeys {k k' : Kernel} {es : List Event} {ops : List Op} (hq : Queued k es ops)
    {s : NftSet} {els : List SetElement} (he : .set s els false ∈ es)
    (hsame : k'.getElements s.table s.name = k.getElements s.table s.name)
    (hagree : KeysAgree es s.table s.name) :
    SameKeys els ((k'.commit ops).getElements s.table s.name) := by
  have hmem : ∀ x, x ∈ contentsOf ((k'.commit ops).getElements s.table s.name) ↔ _ := fun x =>
    hq.mem_contents
  have hstored : ∀ {d : SetElement} {l : List SetElement}, d ∈ l →
      (d.key, d.intervalEnd) ∈ contentsOf l := fun {d} _ hd => mem_contentsOf.2 ⟨d, hd, rfl, rfl⟩
  refine ⟨fun d hd => ?_, fun y hy => ?_⟩
  · by_cases hold : ∃ c ∈ k.getElements s.table s.name, c.key = d.key
    · -- a committed element with the key is dropped by no call
      obtain ⟨c, hc, hkey⟩ := hold
      have hkept : (c.key, c.intervalEnd) ∈
          contentsOf ((k'.commit ops).getElements s.table s.name) := by
        refine (hmem _).2 (.inl ⟨by rw [hsame]; exact hstored hc, fun e' he' hdrops => ?_⟩)
        cases e' with
        | chain c => exact hdrops
        | rule r action force isNew => exact hdrops
        | set s' els' fresh' =>
          obtain ⟨hname, -, -, hno⟩ := hdrops
          obtain ⟨d', hd', hkey'⟩ :=
            (hagree s els false s' els' fresh' he he' ⟨rfl, rfl⟩ hname).1 d hd
          exact hno d' hd' (hkey'.trans hkey.symm)
      obtain ⟨y, hy, hyk, -⟩ := mem_contentsOf.1 hkept
      exact ⟨y, hy, hyk.trans hkey⟩
    · have hput : (d.key, d.intervalEnd) ∈
          contentsOf ((k'.commit ops).getElements s.table s.name) :=
        (hmem _).2 (.inr ⟨_, he, ⟨rfl, rfl⟩, hstored hd, fun _ c hc hkey => hold ⟨c, hc, hkey⟩⟩)
      obtain ⟨y, hy, hyk, -⟩ := mem_contentsOf.1 hput
      exact ⟨y, hy, hyk⟩
  · rcases (hmem _).1 (hstored hy) with ⟨hin, hno⟩ | ⟨e', he', hputs⟩
    · -- this call did not drop it
      rw [hsame] at hin
      by_contra hnone
      refine hno _ he ⟨⟨rfl, rfl⟩, rfl, hin, fun d hd hkey => hnone ⟨d, hd, hkey⟩⟩
    · cases e' with
      | chain c => exact absurd hputs id
      | rule r action force isNew => exact absurd hputs id
      | set s' els' fresh' =>
        obtain ⟨hname, hin, -⟩ := hputs
        obtain ⟨d', hd', hkey, -⟩ := mem_contentsOf.1 hin
        obtain ⟨d, hd, hdk⟩ :=
          (hagree s els false s' els' fresh' he he' ⟨rfl, rfl⟩ hname).2 d' hd'
        exact ⟨d, hd, hdk.trans hkey⟩

/-- `cleanupRules` leaves a set that was asked for. -/
theorem cleanupRules_keeps_set {h : Host} {table : Str} {s s' : State} {u : Unit}
    (hm : s.messages = []) (hs : cleanupRules h table s = .ok u s') {t n : Str}
    (hkey : objectKey t n ∈ s.sets) : s'.kernel.findSet t n = s.kernel.findSet t n ∧
      s'.kernel.getElements t n = s.kernel.getElements t n := by
  obtain ⟨-, q, rfl⟩ := cleanupRules_commits hm hs
  -- a set in the map is not deleted
  have hkept : ∀ op ∈ staleOps h table s, op ≠ .delSet t n := by
    intro op hop
    rcases List.mem_append.1 hop with hop | hop
    · obtain ⟨c, handle, rfl⟩ := mem_staleChainOps hop
      exact nofun
    · obtain ⟨n', rfl, hstale⟩ := mem_staleSetOps hop
      intro heq
      obtain ⟨rfl, rfl⟩ := Op.delSet.inj heq
      exact hstale hkey
  have hdelete : ∀ op ∈ staleOps h table s, op.isDelete = true := isDelete_of_mem_staleOps
  constructor
  · change (s.kernel.commit (staleOps h table s)).findSet t n = _
    unfold Kernel.findSet
    rw [Kernel.commit_deletes_sets hdelete, ← List.head?_filter, ← List.head?_filter,
      List.filter_filter]
    congr 1
    refine List.filter_congr fun x _ => ?_
    rw [Bool.and_eq_left_iff_imp]
    intro hx
    rw [Bool.and_eq_true, beq_iff_eq, beq_iff_eq] at hx
    rw [Bool.not_eq_true', List.any_eq_false]
    intro op hop hdel
    cases op with
    | delSet t' n' =>
      rw [Op.deletesSet, Bool.and_eq_true, beq_iff_eq, beq_iff_eq, hx.1, hx.2] at hdel
      exact hkept _ hop (by rw [hdel.1, hdel.2])
    | _ => cases hdel
  · refine Kernel.getElements_commit (fun op hop => ⟨?_, hkept op hop⟩) s.kernel
    have hop := hdelete op hop
    cases op <;> first | rfl | cases hop

/-- The cleanup of chains keeps the sets. -/
theorem cleanupChains_keeps_set {h : Host} {s s' : State} {u : Unit} (hm : s.messages = [])
    (hs : cleanupChains h s = .ok u s') (t n : Str) :
    s'.kernel.findSet t n = s.kernel.findSet t n ∧
      s'.kernel.getElements t n = s.kernel.getElements t n := by
  have hsets := (cleanupChains_chains hm hs).1
  refine ⟨by unfold Kernel.findSet; rw [hsets], ?_⟩
  obtain ⟨-, q, rfl⟩ := cleanupChains_commits hm hs
  refine Kernel.getElements_commit (fun op hop => ?_) s.kernel
  obtain ⟨t', c, rfl, -⟩ := mem_emptyOps hop
  exact ⟨rfl, nofun⟩

/-! ### What a run leaves -/

/-- The table of a request. -/
def Request.table : Request → Str
  | chain c => c.table
  | set s _ => s.table
  | rule r _ => r.table

/-- The daemon's tables hold what the requests ask for and nothing that the cleanup would delete
behind them. -/
structure InPlace (h : Host) (rs : List Request) (k : Kernel) : Prop where
  tables : ∀ t, isManaged t = true → t ∈ k.tables
  managed : ∀ q ∈ rs, isManaged q.table = true
  settled : ∀ q ∈ rs, q.Settled k
  rules : ∀ r ∈ k.rules, isManaged r.table = true →
    ∃ q action, .rule q action ∈ rs ∧ hashRule h q = hashRule h r.listed
  sets : ∀ x ∈ k.sets, isManaged x.table = true → x.anonymous = false →
    ∃ y els, .set y els ∈ rs ∧ objectKey y.table y.name = objectKey x.table x.name
  chains : ∀ c ∈ k.chains, isManaged c.table = true →
    (∃ d, .chain d ∈ rs ∧ objectKey d.table d.name = objectKey c.table c.name) ∨
      k.getRules c.table c.name ≠ []

/-- Requests for one set want the same keys. -/
def Input.SetsAgree (i : Input) (bo : ByteOrder) : Prop :=
  ∀ x ∈ i.requestedSets bo, ∀ y ∈ i.requestedSets bo,
    x.1.table = y.1.table → x.1.name = y.1.name → SameKeys x.2 y.2

instance (i : Input) (bo : ByteOrder) : Decidable (i.SetsAgree bo) :=
  inferInstanceAs (Decidable (∀ x ∈ i.requestedSets bo, ∀ y ∈ i.requestedSets bo,
    x.1.table = y.1.table → x.1.name = y.1.name → SameKeys x.2 y.2))

/-- Agreeing requests, in an execution. -/
theorem Input.SetsAgree.keysAgree {i : Input} {bo : ByteOrder} (hagree : i.SetsAgree bo)
    {es : List Event} {u : Unit} (hexec : Render.Exec (Render.renderInput bo i) es u) (t n : Str) :
    KeysAgree es t n := by
  intro x els fresh y els' fresh' hx hy hxn hyn
  have hx' := (mem_requestedSets hexec).2 ⟨x, fresh, hx, rfl⟩
  have hy' := (mem_requestedSets hexec).2 ⟨y, fresh', hy, rfl⟩
  exact hagree _ hx' _ hy' (hxn.1.trans hyn.1.symm) (hxn.2.trans hyn.2.symm)

section Leaves

variable {h : Host} {i : Input} {k : Kernel} {s₀ s₁ s₂ s₃ s : State} {es : List Event}

/-- A chain that was asked for is there at the end. -/
theorem Stages.hasChain (wf : k.WF) (hst : Stages h i k s₀ s₁ s₂ s₃ s)
    (hf : MainFlush h i s₀ es s₁) {c : Chain} (hc : .chain c ∈ es) :
    s.kernel.hasChain c.table c.name = true := by
  obtain ⟨ht₂, ht₃⟩ := hst.tracked wf hf
  obtain ⟨tables, ops, htables, hq, hk⟩ := hf.kernel
  have hremoves : ∀ op ∈ tables ++ ops, op.removes = false := by
    intro op hop
    rcases List.mem_append.1 hop with hop | hop
    · obtain ⟨t, -, rfl⟩ := htables op hop
      rfl
    · exact hq.forall_mem (fun e _ ops' hops' op hop => (hops'.table op hop).2) op hop
  -- it is there behind the main batch, and tracked, so the cleanups keep it
  have hmain : s₁.kernel.hasChain c.table c.name = true := by
    rw [hk]
    obtain ⟨ops', hqueues, hsub⟩ := hq.queues_of_mem _ hc
    rcases hqueues with rfl | ⟨hold, -⟩
    · have hop : .addChain c ∈ tables ++ ops :=
        List.mem_append_right _ (hsub (List.mem_singleton_self _))
      exact Kernel.hasChain_of_addChain hremoves hop s₀.kernel
    · exact Kernel.hasChain_mono (Kernel.objects_subset_commit hremoves _).1 hold
  obtain ⟨x, hx, hxt, hxn⟩ := Kernel.hasChain_iff.1 hmain
  rw [← (cleanupRules_sets hf.messages hst.filterRules).1,
    ← (cleanupRules_sets ht₂.messages hst.natRules).1] at hx
  refine Kernel.hasChain_iff.2 ⟨x, ?_, hxt, hxn⟩
  by_contra hnot
  refine ((cleanupChains_chains ht₃.messages hst.chains).2.2 x hx hnot).1 ?_
  rw [ht₃.chains, hxt, hxn]
  exact List.mem_map_of_mem (f := fun c : Chain => objectKey c.table c.name)
    (mem_chainsOf.2 hc)

/-- The cleanup leaves a set that was asked for. -/
theorem Stages.keeps_set (wf : k.WF) (hst : Stages h i k s₀ s₁ s₂ s₃ s)
    (hf : MainFlush h i s₀ es s₁) {x : NftSet} (hx : x ∈ setsOf es) :
    s.kernel.findSet x.table x.name = s₁.kernel.findSet x.table x.name ∧
      s.kernel.getElements x.table x.name = s₁.kernel.getElements x.table x.name := by
  obtain ⟨ht₂, ht₃⟩ := hst.tracked wf hf
  have hkey : objectKey x.table x.name ∈ (setsOf es).map fun x => objectKey x.table x.name :=
    List.mem_map_of_mem (f := fun x : NftSet => objectKey x.table x.name) hx
  obtain ⟨hset₂, hels₂⟩ := cleanupRules_keeps_set hf.messages hst.filterRules
    (by rw [hf.sets]; exact hkey)
  obtain ⟨hset₃, hels₃⟩ := cleanupRules_keeps_set ht₂.messages hst.natRules
    (by rw [ht₂.sets]; exact hkey)
  obtain ⟨hset₄, hels₄⟩ := cleanupChains_keeps_set ht₃.messages hst.chains x.table x.name
  exact ⟨hset₄.trans (hset₃.trans hset₂), hels₄.trans (hels₃.trans hels₂)⟩

/-- The daemon's tables are there at the end. -/
theorem Stages.mem_tables (wf : k.WF) (hst : Stages h i k s₀ s₁ s₂ s₃ s)
    (hf : MainFlush h i s₀ es s₁) {t : Str} (ht : isManaged t = true) : t ∈ s.kernel.tables := by
  obtain ⟨ht₂, ht₃⟩ := hst.tracked wf hf
  have hmain := commitRules_tables hst.main ht
  obtain ⟨-, _, hs₂⟩ := cleanupRules_commits hf.messages hst.filterRules
  obtain ⟨-, _, hs₃⟩ := cleanupRules_commits ht₂.messages hst.natRules
  obtain ⟨-, _, hs⟩ := cleanupChains_commits ht₃.messages hst.chains
  have hmem₂ : t ∈ s₂.kernel.tables := by
    rw [hs₂]
    exact Kernel.mem_tables_of_mem hmain
  have hmem₃ : t ∈ s₃.kernel.tables := by
    rw [hs₃]
    exact Kernel.mem_tables_of_mem hmem₂
  rw [hs]
  exact Kernel.mem_tables_of_mem hmem₃

/-- A call for a set that was there is settled at the end. -/
theorem Stages.settled_set (wf : k.WF) (hst : Stages h i k s₀ s₁ s₂ s₃ s)
    (hf : MainFlush h i s₀ es s₁)
    (hold : ∀ x ∈ i.requestedSets h.byteOrder, k.hasSet x.1.table x.1.name = true)
    (hagree : i.SetsAgree h.byteOrder) {x : NftSet} {els : List SetElement} {fresh : Bool}
    (he : .set x els fresh ∈ es) : (Event.set x els fresh).request.Settled s.kernel := by
  have hx : x ∈ setsOf es := mem_setsOf.2 ⟨els, fresh, he⟩
  have hsound := Render.sound_renderInput hf.exec
  obtain ⟨hinv, -⟩ := cleanupLegacyTables_keeps.of_ok (legacyInv_new wf) hst.legacy
  have hset₀ : s₀.kernel.hasSet x.table x.name = true := by
    rw [hinv.agree.hasSet (not_legacy_of_isManaged (hsound.set x hx))]
    exact (forall_setsOf_iff hf.exec (P := fun t n => k.hasSet t n = true)).2 hold x hx
  obtain ⟨tables, ops, htables, hq, hk⟩ := hf.kernel
  obtain ⟨ops', ⟨hfresh, -⟩, -⟩ := hq.queues_of_mem _ he
  obtain rfl : fresh = false := by rw [hfresh, hset₀]; rfl
  -- the main batch removes no set
  have hset₁ : s₁.kernel.hasSet x.table x.name = true := by
    obtain ⟨all, hall, hops⟩ := hf.managed
    rw [hall]
    exact Kernel.hasSet_mono
      (Kernel.objects_subset_commit (fun op hop => (hops op hop).2) s₀.kernel).2 hset₀
  have hsame : (s₀.kernel.commit tables).getElements x.table x.name =
      s₀.kernel.getElements x.table x.name := by
    refine Kernel.getElements_commit (fun op hop => ?_) s₀.kernel
    obtain ⟨t, -, rfl⟩ := htables op hop
    exact ⟨rfl, nofun⟩
  -- and leaves the wanted keys in it, as all calls for it agree
  have hkeys := hq.sameKeys he hsame (hagree.keysAgree hf.exec _ _)
  rw [← Kernel.commit_append, ← hk] at hkeys
  obtain ⟨hset, hels⟩ := hst.keeps_set wf hf hx
  change (s.kernel.findSet x.table x.name).isSome = true ∧
    SameKeys els (s.kernel.getElements x.table x.name)
  rw [hset, hels]
  exact ⟨hset₁, hkeys⟩

/-- **What a run leaves** when it needed no new set and its calls agree. -/
theorem inPlace_of_run (wf : k.WF)
    (hs : applyPolicyRulesForPodAndFamily h i (State.new k) = .ok () s)
    (hold : ∀ x ∈ i.requestedSets h.byteOrder, k.hasSet x.1.table x.1.name = true)
    (hagree : i.SetsAgree h.byteOrder) : InPlace h (i.requests h.byteOrder) s.kernel := by
  obtain ⟨s₀, s₁, s₂, s₃, es, hst, hf⟩ := exists_stages wf hs
  obtain ⟨ht₂, ht₃⟩ := hst.tracked wf hf
  have hsound := Render.sound_renderInput hf.exec
  obtain ⟨hrules, hreq⟩ := hst.rules_requested wf hf
  -- rules without new sets are found again as they were asked for
  have hfound := mem_chainRules_of_old wf hs hold
  rw [hreq] at hfound
  have hmem : ∀ {e : Event}, e ∈ es → e.request ∈ i.requests h.byteOrder := by
    intro e he
    rw [requests_of_exec hf.exec]
    exact List.mem_map_of_mem he
  have hinv : ∀ q ∈ i.requests h.byteOrder, ∃ e ∈ es, e.request = q := by
    rw [requests_of_exec hf.exec]
    exact fun q hq => List.mem_map.1 hq
  refine ⟨fun t ht => hst.mem_tables wf hf ht, fun q hq => ?_, fun q hq => ?_,
    fun r hr hm => ?_, fun x hx hm hanon => ?_, fun c hc hm => ?_⟩
  · obtain ⟨e, he, rfl⟩ := hinv q hq
    have hmanaged := hsound.managed he
    cases e <;> exact hmanaged
  · obtain ⟨e, he, rfl⟩ := hinv q hq
    cases e with
    | chain c => exact hst.hasChain wf hf he
    | set x els fresh => exact hst.settled_set wf hf hold hagree he
    | rule r action force isNew =>
      have hr : r ∈ rulesOf es := mem_rulesOf.2 ⟨action, force, isNew, he⟩
      obtain ⟨hlisted, hin⟩ := hfound r hr
      change (s.kernel.findRule r.listed).isSome = true
      rw [Rule.content, hlisted] at hin
      rw [hlisted, Kernel.findRule_isSome_iff (hsound.rule r hr).1]
      exact hin
  -- every rule that is left has the key of one that was asked for
  · rw [hrules] at hr
    have hkey := hst.kept wf hf r hr hm
    rw [ht₃.rules] at hkey
    obtain ⟨q, hq, hqr⟩ := List.mem_map.1 hkey
    obtain ⟨action, force, isNew, he⟩ := mem_rulesOf.1 hq
    refine ⟨q.listed, action, hmem he, ?_⟩
    rw [(hfound q hq).1]
    exact hqr
  · have hkey := hst.sets_known hf.tracked ht₂ ht₃ hx hm hanon
    rw [hf.sets] at hkey
    obtain ⟨y, hy, hyx⟩ := List.mem_map.1 hkey
    obtain ⟨els, fresh, he⟩ := mem_setsOf.1 hy
    exact ⟨{ y with id := 0 }, els, hmem he, hyx⟩
  · obtain ⟨-, hknown, -⟩ := cleanupChains_chains ht₃.messages hst.chains
    rcases (hknown c hc).2 hm with hkey | hne
    · left
      rw [ht₃.chains] at hkey
      obtain ⟨d, hd, hdc⟩ := List.mem_map.1 hkey
      exact ⟨d, hmem (mem_chainsOf.1 hd), hdc⟩
    · right
      unfold Kernel.getRules
      rw [hrules]
      exact hne

end Leaves

/-! ### Machines, orders and other tables do not matter -/

/-- Two hosts encode rules alike. -/
structure Host.SameMachine (h h' : Host) : Prop where
  byteOrder : h.byteOrder = h'.byteOrder
  gobExpr : h.gobExpr = h'.gobExpr
  gobRuleData : h.gobRuleData = h'.gobRuleData

theorem Host.SameMachine.hashRule {h h' : Host} (hm : h.SameMachine h') (r : Rule) :
    hashRule h r = hashRule h' r := by
  have hexpr : hashExpr h = hashExpr h' := by
    funext e
    unfold hashExpr
    rw [hm.gobExpr]
  unfold MultiNetPolicy.hashRule newRuleData
  rw [hexpr, hm.gobRuleData]

/-- The legacy tables do not matter. -/
theorem Request.Settled.agree {k k' : Kernel} (ha : k.AgreeOutside legacyNames k') {q : Request}
    (hm : isManaged q.table = true) (hs : q.Settled k) : q.Settled k' := by
  have ht := not_legacy_of_isManaged hm
  cases q with
  | chain c =>
    change k'.hasChain c.table c.name = true
    rw [ha.hasChain (t := c.table) ht]
    exact hs
  | set x els =>
    change k'.hasSet x.table x.name = true ∧ SameKeys els (k'.getElements x.table x.name)
    rw [ha.hasSet (t := x.table) ht, ha.getElements (t := x.table) ht]
    exact hs
  | rule r action =>
    change (k'.findRule r).isSome = true
    rw [ha.findRule (r := r) ht]
    exact hs

namespace InPlace

variable {h h' : Host} {rs rs' : List Request} {k k' : Kernel}

theorem host (hin : InPlace h rs k) (hm : h.SameMachine h') : InPlace h' rs k where
  tables := hin.tables
  managed := hin.managed
  settled := hin.settled
  rules r hr ht := by
    obtain ⟨q, action, hq, hkey⟩ := hin.rules r hr ht
    exact ⟨q, action, hq, by rw [← hm.hashRule, ← hm.hashRule, hkey]⟩
  sets := hin.sets
  chains := hin.chains

/-- What is in place is not in the legacy tables. -/
theorem agree (hin : InPlace h rs k) (ha : k.AgreeOutside legacyNames k')
    (htables : ∀ t, isManaged t = true → t ∈ k'.tables) : InPlace h rs k' where
  tables := htables
  managed := hin.managed
  settled q hq := (hin.settled q hq).agree ha (hin.managed q hq)
  rules r hr hm := hin.rules r (Kernel.AgreeOutside.mem ha.rules hr (not_legacy_of_isManaged hm)) hm
  sets x hx hm := hin.sets x (Kernel.AgreeOutside.mem ha.sets hx (not_legacy_of_isManaged hm)) hm
  chains c hc hm := by
    have ht := not_legacy_of_isManaged hm
    rw [ha.getRules ht]
    exact hin.chains c (Kernel.AgreeOutside.mem ha.chains hc ht) hm

/-- The orders of elements do not matter. -/
theorem alike (hin : InPlace h rs k) (hrs : List.Forall₂ Request.Alike rs rs') :
    InPlace h rs' k where
  tables := hin.tables
  managed q hq := by
    obtain ⟨q₀, hq₀, hq⟩ := exists_mem_of_forall₂ hrs hq
    have hm := hin.managed q₀ hq₀
    cases hq <;> exact hm
  settled q hq := by
    obtain ⟨q₀, hq₀, hq⟩ := exists_mem_of_forall₂ hrs hq
    exact (hin.settled q₀ hq₀).alike hq
  rules r hr hm := by
    obtain ⟨q, action, hq, hkey⟩ := hin.rules r hr hm
    obtain ⟨q', hq', halike⟩ := exists_mem_of_forall₂ hrs.flip hq
    cases halike
    exact ⟨q, action, hq', hkey⟩
  sets x hx hm hanon := by
    obtain ⟨y, els, hy, hkey⟩ := hin.sets x hx hm hanon
    obtain ⟨y', hy', halike⟩ := exists_mem_of_forall₂ hrs.flip hy
    cases halike
    exact ⟨y, _, hy', hkey⟩
  chains c hc hm := by
    refine (hin.chains c hc hm).imp_left ?_
    rintro ⟨d, hd, hkey⟩
    obtain ⟨d', hd', halike⟩ := exists_mem_of_forall₂ hrs.flip hd
    cases halike
    exact ⟨d, hd', hkey⟩

end InPlace

/-! ### The next run -/

/-- The run queues nothing for its main flush, and commits nothing but the legacy cleanup: when that
succeeds, so does the run, and when it fails it has only touched the legacy tables. -/
structure Undisturbed (h : Host) (i : Input) (k : Kernel) : Prop where
  idle : ∀ s₀, cleanupLegacyTables h (State.new k) = .ok () s₀ →
    ∃ sq s, queueRules h i (State.new k) = .ok () sq ∧ sq.messages = [] ∧
      applyPolicyRulesForPodAndFamily h i (State.new k) = .ok () s ∧ s.kernel = s₀.kernel
  unchanged : ∀ s, (applyPolicyRulesForPodAndFamily h i (State.new k) = .ok () s ∨
    ∃ e, applyPolicyRulesForPodAndFamily h i (State.new k) = .error e s) →
      k.AgreeOutside legacyNames s.kernel

section Next

variable {h : Host} {i : Input} {k : Kernel} {s₀ : State}

/-- An execution that makes the requests remembers the keys of what is in place. -/
theorem InPlace.unstale {es : List Event} {s s' : State} (hin : InPlace h (i.requests h.byteOrder)
    s.kernel) (hexec : Render.Exec (Render.renderInput h.byteOrder i) es ())
    (hadv : Advance h es s s') (hm : s'.messages = []) : Unstale h s' := by
  have hsound := Render.sound_renderInput hexec
  have hreq := requests_of_exec hexec
  obtain ⟨ops, hq, -⟩ := hadv.messages
  have hold : ∀ x ∈ setsOf es, s.kernel.hasSet x.table x.name = true := by
    intro x hx
    obtain ⟨els, fresh, he⟩ := mem_setsOf.1 hx
    have hmem : (Event.set x els fresh).request ∈ i.requests h.byteOrder := by
      rw [hreq]
      exact List.mem_map_of_mem he
    exact (hin.settled _ hmem).1
  rw [hreq] at hin
  -- each object has the key of a request, and the requests are tracked
  refine ⟨hm, fun r hr ht => ?_, fun x hx ht hanon => ?_, fun c hc ht => ?_⟩
  · rw [hadv.kernel] at hr
    obtain ⟨q, action, hmem, hkey⟩ := hin.rules r hr ht
    obtain ⟨e, he, heq⟩ := List.mem_map.1 hmem
    cases e with
    | chain c => cases heq
    | set x els fresh => cases heq
    | rule r' action' force isNew =>
      obtain ⟨rfl, -⟩ := Request.rule.inj heq
      have hr' : r' ∈ rulesOf es := mem_rulesOf.2 ⟨action', force, isNew, he⟩
      rw [listed_eq_of_old hsound hq hold hr'] at hkey
      rw [hadv.rules, ← hkey]
      exact List.mem_append_right _ (List.mem_map_of_mem hr')
  · rw [hadv.kernel] at hx
    obtain ⟨y, els, hmem, hkey⟩ := hin.sets x hx ht hanon
    obtain ⟨e, he, heq⟩ := List.mem_map.1 hmem
    cases e with
    | chain c => cases heq
    | rule r action force isNew => cases heq
    | set y' els' fresh =>
      obtain ⟨rfl, -⟩ := Request.set.inj heq
      have hy : y' ∈ setsOf es := mem_setsOf.2 ⟨els', fresh, he⟩
      rw [hadv.sets, ← hkey]
      exact List.mem_append_right _ (List.mem_map.2 ⟨y', hy, rfl⟩)
  · rw [hadv.kernel] at hc ⊢
    refine (hin.chains c hc ht).imp_left ?_
    rintro ⟨d, hmem, hkey⟩
    obtain ⟨e, he, heq⟩ := List.mem_map.1 hmem
    cases e with
    | set x els fresh => cases heq
    | rule r action force isNew => cases heq
    | chain d' =>
      obtain rfl := Request.chain.inj heq
      rw [hadv.chains, ← hkey]
      exact List.mem_append_right _ (List.mem_map.2 ⟨d', mem_chainsOf.2 he, rfl⟩)

/-- From a ruleset in place nothing is queued. -/
theorem InPlace.queueRules (hf : ∀ n, h.fault n = false) (wf : k.WF)
    (hin : InPlace h (i.requests h.byteOrder) k)
    (hplan : ∃ rs, (Render.renderInput h.byteOrder i).plan = some (rs, ()))
    (hintf : i.podInfo.interfaces.length ≠ 0)
    (hleg : cleanupLegacyTables h (State.new k) = .ok () s₀) :
    ∃ sq, queueRules h i (State.new k) = .ok () sq ∧ sq.messages = [] ∧
      sq.kernel = s₀.kernel ∧ Unstale h sq := by
  obtain ⟨hinv, -⟩ := cleanupLegacyTables_keeps.of_ok (legacyInv_new wf) hleg
  have htables : ∀ t, isManaged t = true → t ∈ s₀.kernel.tables := fun t ht =>
    (cleanupLegacyTables_tables.of_ok (s := State.new k) (hin.tables t ht) hleg).1
  -- the legacy cleanup does not disturb what is in place
  have hin₀ := hin.agree hinv.agree htables
  have hhas : ∀ t, isManaged t = true → s₀.kernel.hasTable t = true := fun t ht =>
    List.contains_iff_mem.2 (htables t ht)
  have hfilter := addTable_settled hf (s := s₀) (hhas filterTableName (by decide))
  have hnat := addTable_settled hf (s := { s₀ with queries := s₀.queries + 1 })
    (hhas natTableName (by decide))
  obtain ⟨rs, hplan⟩ := hplan
  have hrs : i.requests h.byteOrder = rs := by
    unfold Input.requests
    rw [hplan]
    rfl
  -- every call of the rendering finds what it asks for
  obtain ⟨sq, hrun, hk, hm⟩ := Render.run_settled hf
    (s := { s₀ with queries := s₀.queries + 1 + 1 }) (Render.quiet_renderInput i) hplan
    (by rw [← hrs]; exact hin₀.settled)
  have hdrained := cleanupLegacyTables_drained hleg
  have hempty : sq.messages = [] := hm.trans hdrained
  obtain ⟨es, hexec, hadv⟩ := Render.run_ok hrun
  refine ⟨sq, ?_, hempty, hk, InPlace.unstale (s := { s₀ with queries := s₀.queries + 1 + 1 }) hin₀
    hexec hadv hempty⟩
  refine bind_eq_ok.2 ⟨(), _, wrapErr_eq_ok.2 ?_, hrun⟩
  unfold bootstrapTables
  rw [if_neg hintf]
  exact bind_eq_ok.2 ⟨(), s₀, hleg, bind_eq_ok.2 ⟨(), _, wrapErr_eq_ok.2 hfilter,
    wrapErr_eq_ok.2 hnat⟩⟩

/-- An empty batch is not sent. -/
theorem flush_nil {s : State} (hm : s.messages = []) : Conn.flush h s = .ok () s := by
  refine bind_eq_ok.2 ⟨s, s, rfl, ?_⟩
  rw [if_pos hm]
  rfl

/-- A run whose legacy cleanup fails ends there. -/
theorem apply_of_legacy_error {e : Error} (hintf : i.podInfo.interfaces.length ≠ 0)
    (hleg : cleanupLegacyTables h (State.new k) = .error e s₀) :
    ∃ e', applyPolicyRulesForPodAndFamily h i (State.new k) = .error e' s₀ := by
  unfold applyPolicyRulesForPodAndFamily commitRules MultiNetPolicy.queueRules bootstrapTables
  rw [if_neg hintf]
  simp only [bind_apply, wrapErr, mapErr, hleg]
  exact ⟨_, rfl⟩

/-- A pod without interfaces is an error. -/
theorem interfaces_of_ok {s s' : State} {u : Unit}
    (hs : applyPolicyRulesForPodAndFamily h i s = .ok u s') :
    i.podInfo.interfaces.length ≠ 0 := by
  intro hnone
  unfold applyPolicyRulesForPodAndFamily commitRules MultiNetPolicy.queueRules bootstrapTables at hs
  simp only [bind_eq_ok, wrapErr_eq_ok, if_pos hnone] at hs
  obtain ⟨_, _, ⟨_, _, ⟨_, _, hthrow, -⟩, -⟩, -⟩ := hs
  exact throw_ne_ok hthrow

/-- **A run from a ruleset in place disturbs nothing.** -/
theorem InPlace.undisturbed (hf : ∀ n, h.fault n = false) (wf : k.WF)
    (hin : InPlace h (i.requests h.byteOrder) k)
    (hplan : ∃ rs, (Render.renderInput h.byteOrder i).plan = some (rs, ()))
    (hintf : i.podInfo.interfaces.length ≠ 0) : Undisturbed h i k := by
  have hidle : ∀ s₀, cleanupLegacyTables h (State.new k) = .ok () s₀ →
      ∃ sq s, MultiNetPolicy.queueRules h i (State.new k) = .ok () sq ∧ sq.messages = [] ∧
        applyPolicyRulesForPodAndFamily h i (State.new k) = .ok () s ∧ s.kernel = s₀.kernel := by
    intro s₀ hleg
    obtain ⟨sq, hqueue, hm, hk, hunstale⟩ := hin.queueRules hf wf hplan hintf hleg
    obtain ⟨s, hclean, -, hks⟩ := passes_cleanup hf sq hunstale rfl
    refine ⟨sq, s, hqueue, hm, ?_, hks.trans hk⟩
    have hcommit : commitRules h i (State.new k) = .ok () sq :=
      bind_eq_ok.2 ⟨(), sq, hqueue, wrapErr_eq_ok.2 (flush_nil hm)⟩
    exact bind_eq_ok.2 ⟨(), sq, hcommit, wrapErr_eq_ok.2 hclean⟩
  refine ⟨hidle, fun s hs => ?_⟩
  -- a run can only fail in its legacy cleanup
  cases hleg : cleanupLegacyTables h (State.new k) with
  | ok u s₀ =>
    obtain ⟨-, s', -, -, hs', hk⟩ := hidle s₀ hleg
    have hinv := (cleanupLegacyTables_keeps.of_ok (legacyInv_new wf) hleg).1
    rw [hs'] at hs
    rcases hs with hs | ⟨e, hs⟩
    · cases hs
      rw [hk]
      exact hinv.agree
    · cases hs
  | error e s₀ =>
    obtain ⟨e', hs'⟩ := apply_of_legacy_error hintf hleg
    have hinv := cleanupLegacyTables_keeps.of_error (legacyInv_new wf) hleg
    rw [hs'] at hs
    rcases hs with hs | ⟨e, hs⟩
    · cases hs
    · cases hs
      exact hinv.agree

/-- A run that queues nothing found every set it asked for, with the keys it wants. -/
theorem Undisturbed.found (wf : k.WF) (hu : Undisturbed h i k)
    (hleg : cleanupLegacyTables h (State.new k) = .ok () s₀) :
    ∃ es, Render.Exec (Render.renderInput h.byteOrder i) es () ∧
      ∀ x els fresh, .set x els fresh ∈ es → k.hasSet x.table x.name = true ∧
        SameKeys els (s₀.kernel.getElements x.table x.name) := by
  obtain ⟨sq, -, hqueue, hm, -⟩ := hu.idle s₀ hleg
  obtain ⟨s', es, hst⟩ := queueRules_staged wf hqueue
  obtain rfl : s₀ = s' := by
    have hsame := hleg.symm.trans hst.legacy
    injection hsame
  obtain ⟨tables, ops, -, hq, hmsg⟩ := hst.messages
  rw [hm, eq_comm, List.append_eq_nil_iff] at hmsg
  obtain ⟨-, rfl⟩ := hmsg
  obtain ⟨hinv, -⟩ := cleanupLegacyTables_keeps.of_ok (legacyInv_new wf) hleg
  refine ⟨es, hst.exec, fun x els fresh he => ?_⟩
  have hmanaged := (Render.sound_renderInput hst.exec).set x (mem_setsOf.2 ⟨els, fresh, he⟩)
  obtain ⟨ops', ⟨hfresh, hops⟩, hsub⟩ := hq.queues_of_mem _ he
  rw [List.eq_nil_of_subset_nil hsub] at hops
  cases fresh with
  | true => cases hops
  | false =>
    rw [← hinv.agree.hasSet (not_legacy_of_isManaged hmanaged)]
    rw [if_neg Bool.false_ne_true] at hops
    exact ⟨by simpa using hfresh.symm, updateElementOps_eq_nil_iff.1 hops.symm⟩

/-- So the calls for one set agree. -/
theorem Undisturbed.setsAgree (wf : k.WF) (hu : Undisturbed h i k)
    (hleg : cleanupLegacyTables h (State.new k) = .ok () s₀) : i.SetsAgree h.byteOrder := by
  obtain ⟨es, hexec, hfound⟩ := hu.found wf hleg
  rintro ⟨x, els⟩ hx ⟨y, els'⟩ hy ht hn
  obtain ⟨x, fresh, hex, rfl⟩ := (mem_requestedSets hexec).1 hx
  obtain ⟨y, fresh', hey, rfl⟩ := (mem_requestedSets hexec).1 hy
  have hkx := (hfound x els fresh hex).2
  have hky := (hfound y els' fresh' hey).2
  rw [← show x.table = y.table from ht, ← show x.name = y.name from hn] at hky
  exact hkx.trans hky.symm

end Next

end MultiNetPolicy
