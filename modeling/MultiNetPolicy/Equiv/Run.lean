import MultiNetPolicy.Equiv.Legacy
import MultiNetPolicy.Equiv.Sound

/-!
# A run of `ApplyPolicyRulesForPodAndFamily`

A successful run from a well-formed ruleset `k` is an execution `es` of the rendering program
against `k` (the legacy cleanup before it is not seen in the daemon's tables).

* `queueRules_ok`: the batch that is queued.
* `commitRules_ok`: the chains after the main flush are `synced k es`.
* `apply_ok`: the chains at the end are what the cleanup leaves of these.
-/

namespace MultiNetPolicy

open ByteString StateExcept

/-! ### Executions and rulesets that agree -/

theorem not_legacy_of_isManaged {t : Str} (ht : isManaged t = true) :
    legacyNames.contains t = false := by
  unfold isManaged at ht
  rw [Bool.or_eq_true, beq_iff_eq, beq_iff_eq] at ht
  rcases ht with rfl | rfl <;> decide

theorem Kernel.AgreeOutside.hasChain {ts : List Str} {k k' : Kernel} (ha : k.AgreeOutside ts k')
    {t : Str} (ht : ts.contains t = false) (c : Str) : k'.hasChain t c = k.hasChain t c := by
  unfold Kernel.hasChain Kernel.findChain
  rw [← List.head?_filter, ← List.head?_filter, filter_eq ha.chains ht]
  intro x hx
  simp only [Bool.and_eq_true, beq_iff_eq] at hx
  exact hx.1

/-- The table of a call. -/
def Event.table : Event → Str
  | .chain c => c.table
  | .set s _ _ => s.table
  | .rule r _ _ _ => r.table

/-- The calls are for the daemon's tables. -/
theorem Sound.managed {es : List Event} (hs : Sound es) {e : Event} (he : e ∈ es) :
    isManaged e.table = true := by
  cases e with
  | chain c => exact hs.chain c (List.mem_filterMap.2 ⟨_, he, rfl⟩)
  | set s els fresh => exact hs.set s (mem_setsOf.2 ⟨els, fresh, he⟩)
  | rule r action force isNew => exact (hs.rule r (mem_rulesOf.2 ⟨action, force, isNew, he⟩)).2.2

/-- A call in the daemon's tables queues the same against rulesets that agree there. -/
theorem Event.Queues.congr {k k' : Kernel} (ha : k.AgreeOutside legacyNames k') {e : Event}
    {ops : List Op} (he : isManaged e.table = true) (h : e.Queues k' ops) : e.Queues k ops := by
  cases e with
  | chain c =>
    have ht : legacyNames.contains c.table = false := not_legacy_of_isManaged he
    simp only [Event.Queues] at h ⊢
    rwa [ha.hasChain ht] at h
  | set s els fresh =>
    have ht : legacyNames.contains s.table = false := not_legacy_of_isManaged he
    simp only [Event.Queues] at h ⊢
    rwa [ha.hasSet ht, ha.getElements ht] at h
  | rule r action force isNew =>
    have ht : legacyNames.contains r.table = false := not_legacy_of_isManaged he
    simp only [Event.Queues] at h ⊢
    rwa [ha.findRule ht] at h

/-- What is queued depends on the daemon's tables. -/
theorem Queued.congr {k k' : Kernel} (ha : k.AgreeOutside legacyNames k') :
    ∀ {es : List Event} {ops : List Op}, (∀ e ∈ es, isManaged e.table = true) →
      Queued k' es ops → Queued k es ops
  | [], ops, _, h => by
    obtain ⟨_, ⟨⟩, rfl⟩ := h
    exact .nil k
  | e :: es, ops, hes, h => by
    obtain ⟨ops₁, ops₂, he, hrest, rfl⟩ := h.cons_inv
    exact .cons (he.congr ha (hes e (List.mem_cons_self ..)))
      (Queued.congr ha (fun x hx => hes x (List.mem_cons_of_mem _ hx)) hrest)

/-! ### The batch -/

/-- The first messages of a batch: deletions in the legacy tables and the daemon's tables. -/
def Op.isPreamble : Op → Bool
  | .addTable _ => true
  | op => op.deletesIn legacyNames

/-- The state in which the batch is complete. -/
structure Batch (h : Host) (i : Input) (k : Kernel) (es : List Event) (s : State) : Prop where
  exec : Render.Exec (Render.renderInput h.byteOrder i) es ()
  agree : k.AgreeOutside legacyNames s.kernel
  wf : s.kernel.WF
  messages : ∃ preamble ops, (∀ op ∈ preamble, op.isPreamble = true) ∧ Queued k es ops ∧
    s.messages = preamble ++ ops
  rules : s.rules = (rulesOf es).map (hashRule h)
  requested : s.requested = rulesOf es

/-- A table is added when it is not listed. -/
theorem addTable_eq_ok {h : Host} {t : Str} {s s' : State} {u : Unit}
    (hs : addTable h t s = .ok u s') :
    ∃ q ops, (∀ op ∈ ops, op = .addTable t) ∧
      s' = { s with queries := q, messages := s.messages ++ ops } := by
  unfold addTable at hs
  simp only [bind_eq_ok, wrapErr_eq_ok, Conn.listTableOfFamily, query_eq_ok] at hs
  obtain ⟨_, _, ⟨-, rfl, rfl⟩, hs⟩ := hs
  split at hs
  · obtain ⟨-, rfl⟩ := pure_eq_ok.1 hs
    exact ⟨s.queries + 1, [], by simp, by simp⟩
  · obtain rfl := modify_eq_ok.1 hs
    exact ⟨s.queries + 1, [.addTable t], by simp, rfl⟩

/-- The state in which the batch is complete, behind the legacy cleanup that ended in `s₀`. -/
structure Staged (h : Host) (i : Input) (k : Kernel) (s₀ : State) (es : List Event) (s : State) :
    Prop where
  legacy : cleanupLegacyTables h (State.new k) = .ok () s₀
  exec : Render.Exec (Render.renderInput h.byteOrder i) es ()
  kernel : s.kernel = s₀.kernel
  messages : ∃ tables ops, (∀ op ∈ tables, ∃ t, isManaged t = true ∧ op = .addTable t) ∧
    Queued s₀.kernel es ops ∧ s.messages = tables ++ ops
  rules : s.rules = (rulesOf es).map (hashRule h)
  sets : s.sets = (setsOf es).map fun x => objectKey x.table x.name
  chains : s.chains = (chainsOf es).map fun c => objectKey c.table c.name
  requested : s.requested = rulesOf es

theorem legacyInv_new {k : Kernel} (wf : k.WF) : LegacyInv k (State.new k) :=
  ⟨by simp [State.new], .refl _ _, wf, rfl, rfl, rfl, rfl⟩

/-- A run up to its main flush. -/
theorem queueRules_staged {h : Host} {i : Input} {k : Kernel} {s : State} {u : Unit} (wf : k.WF)
    (hs : queueRules h i (State.new k) = .ok u s) : ∃ s₀ es, Staged h i k s₀ es s := by
  unfold queueRules bootstrapTables at hs
  rw [bind_eq_ok] at hs
  obtain ⟨_, s₁, hboot, hrender⟩ := hs
  rw [wrapErr_eq_ok] at hboot
  split at hboot
  · exact absurd hboot throw_ne_ok
  · simp only [bind_eq_ok, wrapErr_eq_ok] at hboot
    obtain ⟨_, s₀, hleg, _, s₂, hfilter, hnat⟩ := hboot
    -- the legacy cleanup tracks nothing, so that the maps begin empty
    obtain ⟨hinv, -⟩ := cleanupLegacyTables_keeps.of_ok (legacyInv_new wf) hleg
    obtain ⟨q₁, ops₁, hops₁, rfl⟩ := addTable_eq_ok hfilter
    obtain ⟨q₂, ops₂, hops₂, rfl⟩ := addTable_eq_ok hnat
    obtain ⟨es, hexec, hadv⟩ := Render.run_ok hrender
    obtain ⟨ops, hq, hm⟩ := hadv.messages
    refine ⟨s₀, es, hleg, hexec, hadv.kernel, ⟨ops₁ ++ ops₂, ops, ?_, hq, ?_⟩, ?_, ?_, ?_, ?_⟩
    · intro op hop
      rcases List.mem_append.1 hop with hop | hop
      · exact ⟨_, by decide, hops₁ op hop⟩
      · exact ⟨_, by decide, hops₂ op hop⟩
    · rw [hm]
      change s₀.messages ++ ops₁ ++ ops₂ ++ ops = _
      rw [cleanupLegacyTables_drained hleg, List.nil_append]
    · have hrules := hadv.rules
      rwa [hinv.rules, List.nil_append] at hrules
    · have hsets := hadv.sets
      rwa [hinv.sets, List.nil_append] at hsets
    · have hchains := hadv.chains
      rwa [hinv.chains, List.nil_append] at hchains
    · have hreq := hadv.requested
      rwa [hinv.requested, List.nil_append] at hreq

/-- **The batch of a run.** -/
theorem queueRules_ok {h : Host} {i : Input} {k : Kernel} {s : State} {u : Unit} (wf : k.WF)
    (hs : queueRules h i (State.new k) = .ok u s) : ∃ es, Batch h i k es s := by
  obtain ⟨s₀, es, hst⟩ := queueRules_staged wf hs
  obtain ⟨hinv, -⟩ := cleanupLegacyTables_keeps.of_ok (legacyInv_new wf) hst.legacy
  obtain ⟨tables, ops, htables, hq, hm⟩ := hst.messages
  have hsound := Render.sound_renderInput hst.exec
  refine ⟨es, hst.exec, ?_, ?_, ⟨tables, ops, fun op hop => ?_, ?_, hm⟩, hst.rules, hst.requested⟩
  · rw [hst.kernel]
    exact hinv.agree
  · rw [hst.kernel]
    exact hinv.wf
  · obtain ⟨t, -, rfl⟩ := htables op hop
    rfl
  · exact hq.congr hinv.agree fun e he => hsound.managed he

/-! ### The main flush -/

/-- The contents of a chain after the calls `es` have been committed over `k`. -/
def synced (k : Kernel) (es : List Event) (t c : Str) : List Rule :=
  (inView t c (addedBy .insertRule es)).reverse ++
    inView t c (k.rules.filter fun r => !(deletedBy k es).contains r.handle) ++
    inView t c (addedBy .addRule es)

/-- The preamble deletes no rule of the daemon's tables. -/
theorem Kernel.commit_preamble : ∀ {ops : List Op}, (∀ op ∈ ops, op.isPreamble = true) →
    ∀ k : Kernel, ∃ p : Rule → Bool, (k.commit ops).rules = k.rules.filter p ∧
      (k.commit ops).nextHandle = k.nextHandle ∧ ∀ r, isManaged r.table = true → p r = true
  | [], _, k => ⟨fun _ => true, by simp, rfl, fun _ _ => rfl⟩
  | op :: ops, h, k => by
    obtain ⟨p, hp, hn, hm⟩ :=
      commit_preamble (fun o ho => h o (List.mem_cons_of_mem _ ho)) (k.apply op)
    have hop := h op (List.mem_cons_self ..)
    -- what a deletion in a legacy table keeps
    have hdel : ∀ {t : Str} {q : Rule → Bool}, legacyNames.contains t = true →
        (∀ r, q r = true → r.table = t) → (k.apply op).rules = (k.rules.filter fun r => !q r) →
        (k.apply op).nextHandle = k.nextHandle →
        ∃ p : Rule → Bool, ((k.apply op).commit ops).rules = k.rules.filter p ∧
          ((k.apply op).commit ops).nextHandle = k.nextHandle ∧
          ∀ r, isManaged r.table = true → p r = true := by
      intro t q ht hq hr hh
      refine ⟨fun r => p r && !q r, by rw [hp, hr, List.filter_filter], hn.trans hh, ?_⟩
      intro r hr'
      cases hqr : q r with
      | false => simp [hm r hr', hqr]
      | true =>
        rw [hq r hqr] at hr'
        rw [not_legacy_of_isManaged hr'] at ht
        cases ht
    rw [commit_cons]
    cases op with
    | addTable t =>
      obtain ⟨h₁, h₂⟩ := @apply_isQuiet (.addTable t) rfl k
      exact ⟨p, by rw [hp, h₁], hn.trans h₂, hm⟩
    | delRule t c n =>
      refine hdel hop (q := fun r => r.inChain t c && r.handle == n) ?_ rfl rfl
      intro r hr
      exact (Rule.inChain_iff.1 (Bool.and_eq_true _ _ ▸ hr).1).1
    | delChain t c =>
      exact hdel hop (q := fun r => r.inChain t c) (fun r hr => (Rule.inChain_iff.1 hr).1) rfl rfl
    | delSet t n =>
      exact ⟨p, hp, hn, hm⟩
    | addChain c => cases hop
    | addRule r => cases hop
    | insertRule r => cases hop
    | addSet x => cases hop
    | addElements t n els => cases hop
    | deleteElements t n els => cases hop

/-- What is deleted depends on the daemon's tables. -/
theorem deletedBy_congr {k k' : Kernel} (ha : k.AgreeOutside legacyNames k') :
    ∀ {es : List Event}, (∀ e ∈ es, isManaged e.table = true) → deletedBy k' es = deletedBy k es
  | [], _ => rfl
  | e :: es, hes => by
    rw [deletedBy_cons k' e es, deletedBy_cons k e es,
      deletedBy_congr ha fun x hx => hes x (List.mem_cons_of_mem _ hx)]
    congr 1
    cases e with
    | chain c => rfl
    | set x els fresh => rfl
    | rule r action force isNew =>
      have ht : legacyNames.contains r.table = false :=
        not_legacy_of_isManaged (hes _ (List.mem_cons_self ..))
      simp only [deletedBy, List.filterMap_cons, ha.findRule ht, List.filterMap_nil]

/-- What a chain shows of the old rules depends on the daemon's tables only. -/
theorem inView_filter_congr {k k' : Kernel} (ha : k.AgreeOutside legacyNames k') {t : Str}
    (ht : isManaged t = true) {c : Str} {q q' : Rule → Bool}
    (hq : ∀ r, r.inChain t c = true → q' r = q r) :
    inView t c (k'.rules.filter q') = inView t c (k.rules.filter q) := by
  unfold inView
  rw [List.filter_filter, List.filter_filter]
  have hsame : ∀ l : List Rule, (l.filter fun r => r.inChain t c && q' r) =
      l.filter fun r => r.inChain t c && q r := by
    intro l
    refine List.filter_congr fun r _ => ?_
    cases hc : Rule.inChain t c r with
    | false => rfl
    | true => rw [hq r hc]
  rw [hsame, Kernel.AgreeOutside.filter_eq ha.rules (not_legacy_of_isManaged ht)]
  intro r hr
  exact (Rule.inChain_iff.1 (Bool.and_eq_true _ _ ▸ hr).1).1

/-- **The chains after the main flush.** -/
theorem commitRules_ok {h : Host} {i : Input} {k : Kernel} {s : State} {u : Unit} (wf : k.WF)
    (hs : commitRules h i (State.new k) = .ok u s) :
    ∃ es, Render.Exec (Render.renderInput h.byteOrder i) es () ∧ (∃ ops, Queued k es ops) ∧
      s.kernel.WF ∧ s.messages = [] ∧ s.rules = (rulesOf es).map (hashRule h) ∧
      s.requested = rulesOf es ∧
      ∀ t, isManaged t = true → ∀ c, s.kernel.chainRules t c = synced k es t c := by
  unfold commitRules at hs
  rw [bind_eq_ok] at hs
  obtain ⟨_, s₁, hqueue, hflush⟩ := hs
  rw [wrapErr_eq_ok] at hflush
  obtain ⟨es, hb⟩ := queueRules_ok wf hqueue
  obtain ⟨hadm, rfl⟩ := flush_eq_ok hflush
  obtain ⟨preamble, ops, hpre, hq, hm⟩ := hb.messages
  have hsound := Render.sound_renderInput hb.exec
  refine ⟨es, hb.exec, ⟨ops, hq⟩, hb.wf.commit hadm, rfl, hb.rules, hb.requested, fun t ht c => ?_⟩
  change (s₁.kernel.commit s₁.messages).chainRules t c = _
  rw [hm, Kernel.commit_append]
  obtain ⟨p, hp, hn, hmanaged⟩ := Kernel.commit_preamble hpre s₁.kernel
  -- the legacy cleanup does not touch the tables that the requests are about
  have hq' : Queued s₁.kernel es ops := hq.congr hb.agree.symm fun e he => hsound.managed he
  -- the layers begin with the committed rules alone
  have hl : Layered s₁.kernel (s₁.kernel.commit preamble) [] p [] :=
    ⟨hn.ge, [], [], by simpa using hp, rfl, rfl, by simp, by simp⟩
  rw [(hl.events hb.wf hq').chainRules t c, List.append_nil, List.nil_append, inView_reverse,
    inView_map_erase, inView_map_erase]
  unfold synced
  congr 2
  refine inView_filter_congr hb.agree ht fun r hr => ?_
  rw [deletedBy_congr hb.agree fun e he => hsound.managed he,
    hmanaged r (by rw [(Rule.inChain_iff.1 hr).1]; exact ht), Bool.true_and]

/-- **The chains at the end of a run.** -/
theorem apply_ok {h : Host} {i : Input} {k : Kernel} {s : State} {u : Unit} (wf : k.WF)
    (hs : applyPolicyRulesForPodAndFamily h i (State.new k) = .ok u s) :
    ∃ es, Render.Exec (Render.renderInput h.byteOrder i) es () ∧ (∃ ops, Queued k es ops) ∧
      s.kernel.WF ∧ s.requested = rulesOf es ∧
      ∀ t, isManaged t = true → ∀ c, s.kernel.chainRules t c =
        (synced k es t c).filter fun r =>
          ((rulesOf es).map (hashRule h)).contains (hashRule h r) := by
  unfold applyPolicyRulesForPodAndFamily at hs
  rw [bind_eq_ok] at hs
  obtain ⟨_, s₁, hcommit, hcleanup⟩ := hs
  rw [wrapErr_eq_ok] at hcleanup
  obtain ⟨es, hexec, hq, hwf, hm, hrules, hreq, hchain⟩ := commitRules_ok wf hcommit
  obtain ⟨hclean, -⟩ := cleanup_ok hwf hm hcleanup
  refine ⟨es, hexec, hq, hclean.wf hwf, hclean.requested.trans hreq, fun t ht c => ?_⟩
  rw [cleanup_chainRules hwf hm hcleanup ht, hchain t ht c, hrules]

end MultiNetPolicy
