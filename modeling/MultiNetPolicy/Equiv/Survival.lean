import MultiNetPolicy.Equiv.Names
import MultiNetPolicy.Equiv.Plan
import MultiNetPolicy.Equiv.Run

/-!
# What survives the cleanup of its own run

The cleanup keeps a listed rule when its key was remembered.  A key is taken from the rule as it was
built, with the IDs of sets that are new in this run, and compared with the key of the rule as it
is listed, without them.

* `mem_synced_of_requested`: every rule that was asked for is there after the main flush.
* `requested_survive_iff`: they all survive the cleanup exactly when no set was new.
-/

namespace MultiNetPolicy

open ByteString

/-! ### Keys -/

namespace Rule

/-- What the key of a rule is computed from. -/
def identity (r : Rule) : Str × Str × Str × List Expr :=
  (r.table, r.chain, r.userData, r.exprs.filter Expr.isHashed)

/-- The sets that a rule looks up. -/
theorem mem_lookups {r : Rule} {x : Str × Nat} :
    x ∈ r.lookups ↔ ∃ reg, .lookup reg x.1 x.2 ∈ r.exprs := by
  unfold lookups
  rw [List.mem_filterMap]
  constructor
  · rintro ⟨e, he, hx⟩
    cases e with
    | lookup reg name id =>
      obtain rfl : (name, id) = x := by simpa using hx
      exact ⟨reg, he⟩
    | _ => simp at hx
  · rintro ⟨reg, he⟩
    exact ⟨_, he, rfl⟩

theorem lookups_listed {r : Rule} {x : Str × Nat} (hx : x ∈ r.lookups) :
    (x.1, 0) ∈ r.listed.lookups := by
  obtain ⟨reg, hreg⟩ := mem_lookups.1 hx
  exact mem_lookups.2 ⟨reg, List.mem_map.2 ⟨_, hreg, rfl⟩⟩

/-- Lookups are part of the key. -/
theorem mem_lookups_of_identity {r r' : Rule} (h : r.identity = r'.identity) {x : Str × Nat}
    (hx : x ∈ r.lookups) : x ∈ r'.lookups := by
  obtain ⟨reg, hreg⟩ := mem_lookups.1 hx
  have hexprs : r.exprs.filter Expr.isHashed = r'.exprs.filter Expr.isHashed := by
    simp only [identity, Prod.mk.injEq] at h
    exact h.2.2.2
  have hmem : Expr.lookup reg x.1 x.2 ∈ r'.exprs.filter Expr.isHashed := by
    rw [← hexprs]
    exact List.mem_filter.2 ⟨hreg, rfl⟩
  exact mem_lookups.2 ⟨reg, List.mem_of_mem_filter hmem⟩

/-- A rule whose lookups have no IDs is listed as it was built. -/
theorem listed_eq_self {r : Rule} (h : ∀ x ∈ r.lookups, x.2 = 0) : r.listed = r := by
  have hexprs : r.exprs.map Expr.listed = r.exprs := by
    refine (List.map_congr_left fun e he => ?_).trans (List.map_id _)
    cases e with
    | lookup reg name id =>
      obtain rfl : id = 0 := h (name, id) (mem_lookups.2 ⟨reg, he⟩)
      rfl
    | _ => rfl
  unfold listed
  rw [hexprs]

theorem listed_listed (r : Rule) : r.listed.listed = r.listed := by
  refine listed_eq_self fun x hx => ?_
  obtain ⟨reg, hreg⟩ := mem_lookups.1 hx
  obtain ⟨e, -, he⟩ := List.mem_map.1 hreg
  cases e with
  | lookup reg' name id =>
    simp only [Expr.listed, Expr.lookup.injEq] at he
    exact he.2.2.symm
  | _ => simp [Expr.listed] at he

/-- A rule that equals a listed one is listed like it. -/
theorem content_eq_of_erase {r r₀ : Rule} (h : r.erase = r₀.content) : r.content = r₀.content := by
  calc r.content = r.erase.listed := rfl
    _ = r₀.content.listed := by rw [h]
    _ = r₀.listed.listed.erase := rfl
    _ = r₀.content := by rw [listed_listed]; rfl

end Rule

/-- Among some rules, two with the same key are the same up to what the key leaves out. -/
def NoCollision (h : Host) (rules : List Rule) : Prop :=
  ∀ x ∈ rules, ∀ y ∈ rules, hashRule h x = hashRule h y → x.identity = y.identity

instance (h : Host) (rules : List Rule) : Decidable (NoCollision h rules) :=
  inferInstanceAs (Decidable (∀ x ∈ rules, ∀ y ∈ rules,
    hashRule h x = hashRule h y → x.identity = y.identity))

/-! ### After the main flush -/

/-- What a listing of a chain shows. -/
theorem mem_inView {t c : Str} {l : List Rule} {x : Rule} :
    x ∈ inView t c l ↔ ∃ r ∈ l, (r.table = t ∧ r.chain = c) ∧ r.content = x := by
  unfold inView
  simp only [List.mem_map, List.mem_filter, Rule.inChain_iff, and_assoc]

/-- What is added is new or forced. -/
theorem mem_addedBy {action : RuleAction} {es : List Event} {r : Rule} :
    r ∈ addedBy action es ↔
      ∃ force isNew, (force = true ∨ isNew = true) ∧ .rule r action force isNew ∈ es := by
  unfold addedBy
  rw [List.mem_filterMap]
  constructor
  · rintro ⟨e, he, hx⟩
    cases e with
    | rule r' action' force isNew =>
      simp only [Option.ite_none_right_eq_some, Option.some.injEq] at hx
      obtain ⟨⟨rfl, hadd⟩, rfl⟩ := hx
      exact ⟨force, isNew, hadd, he⟩
    | chain c => cases hx
    | set s els fresh => cases hx
  · rintro ⟨force, isNew, hadd, he⟩
    exact ⟨_, he, if_pos ⟨rfl, hadd⟩⟩

/-- A rule that is queued is in its chain. -/
theorem mem_synced_of_added {k : Kernel} {es : List Event} {r : Rule} {action : RuleAction}
    {force isNew : Bool} (he : .rule r action force isNew ∈ es)
    (hadd : force = true ∨ isNew = true) : r.content ∈ synced k es r.table r.chain := by
  have hmem : r.content ∈ inView r.table r.chain (addedBy action es) :=
    mem_inView.2 ⟨r, mem_addedBy.2 ⟨force, isNew, hadd, he⟩, ⟨rfl, rfl⟩, rfl⟩
  unfold synced
  simp only [List.mem_append, List.mem_reverse]
  cases action with
  | insertRule => exact .inl (.inl hmem)
  | addRule => exact .inr hmem

/-- What a call queues is a part of the batch. -/
theorem Queued.queues_of_mem {k : Kernel} : ∀ {es : List Event} {ops : List Op}, Queued k es ops →
    ∀ e ∈ es, ∃ ops', e.Queues k ops' ∧ ops' ⊆ ops
  | [], _, _, e, he => by cases he
  | e₀ :: es, ops, hq, e, he => by
    obtain ⟨ops₁, ops₂, h₀, hq', rfl⟩ := hq.cons_inv
    rcases List.mem_cons.1 he with rfl | he
    · exact ⟨ops₁, h₀, List.subset_append_left ..⟩
    · obtain ⟨ops', hops', hsub⟩ := hq'.queues_of_mem e he
      exact ⟨ops', hops', List.subset_append_of_subset_right _ hsub⟩

/-- The committed rule behind a listed one. -/
theorem Kernel.exists_of_findRule {k : Kernel} {r e : Rule} (h : k.findRule r = some e) :
    ∃ r₀ ∈ k.rules, r₀.table = r.table ∧ r₀.chain = r.chain ∧ r₀.handle = e.handle ∧
      r.content = r₀.content := by
  have hmem : e ∈ k.getRules r.table r.chain := List.mem_of_find?_eq_some h
  obtain ⟨r₀, hr₀, rfl⟩ := List.mem_map.1 hmem
  obtain ⟨hr₀, hc⟩ := List.mem_filter.1 hr₀
  obtain ⟨ht, hc⟩ := Rule.inChain_iff.1 hc
  exact ⟨r₀, hr₀, ht, hc, rfl, Rule.content_eq_of_erase
    (erase_eq_of_ruleEqual (ruleEqual_of_findRule h))⟩

/-- **Every rule that was asked for is there after the main flush.** -/
theorem mem_synced_of_requested {k : Kernel} (wf : k.WF) {es : List Event} {ops : List Op}
    (hq : Queued k es ops) {r : Rule} (hr : r ∈ rulesOf es) :
    r.content ∈ synced k es r.table r.chain := by
  obtain ⟨action, force, isNew, he⟩ := mem_rulesOf.1 hr
  obtain ⟨ops', hqueues, -⟩ := hq.queues_of_mem _ he
  simp only [Event.Queues] at hqueues
  cases hf : k.findRule r with
  | none =>
    rw [hf] at hqueues
    exact mem_synced_of_added he (.inr hqueues.1)
  | some e =>
    obtain ⟨r₀, hr₀, ht, hc, hh, hcontent⟩ := Kernel.exists_of_findRule hf
    by_cases hdel : (deletedBy k es).contains r₀.handle = true
    · -- a forced update deleted the rule that was found, and queued it again
      obtain ⟨e', he', hd⟩ := List.mem_filterMap.1 (List.contains_iff_mem.1 hdel)
      cases e' with
      | chain c => cases hd
      | set s els fresh => cases hd
      | rule r' action' force' isNew' =>
        simp only [Option.ite_none_right_eq_some, Option.map_eq_some_iff] at hd
        obtain ⟨hforce, e₁, hf', hhandle⟩ := hd
        obtain ⟨r₁, hr₁, ht₁, hc₁, hh₁, hcontent₁⟩ := Kernel.exists_of_findRule hf'
        obtain rfl : r₁ = r₀ :=
          List.inj_on_of_nodup_map wf.handles_nodup hr₁ hr₀ (hh₁.trans hhandle)
        have hadded := mem_synced_of_added (k := k) he' (.inl hforce)
        rwa [← ht₁, ← hc₁, ht, hc, hcontent₁, ← hcontent] at hadded
    · rw [hcontent]
      unfold synced
      refine List.mem_append_left _ (List.mem_append_right _ (mem_inView.2 ⟨r₀, ?_, ⟨ht, hc⟩, rfl⟩))
      exact List.mem_filter.2 ⟨hr₀, by rw [Bool.eq_false_of_not_eq_true hdel]; rfl⟩

/-! ### After the cleanup -/

/-- A set has an ID exactly when it was not there. -/
theorem id_eq_zero_iff {k : Kernel} {es : List Event} {ops : List Op} (hsound : Sound es)
    (hq : Queued k es ops) {x : NftSet} {els : List SetElement} {fresh : Bool}
    (he : .set x els fresh ∈ es) : x.id = 0 ↔ k.hasSet x.table x.name = true := by
  obtain ⟨ops', ⟨hfresh, -⟩, -⟩ := hq.queues_of_mem _ he
  rw [hsound.fresh x els fresh he, hfresh, Bool.not_eq_false']

/-- When no set is new, rules are built as they are listed. -/
theorem listed_eq_of_old {k : Kernel} {es : List Event} {ops : List Op} (hsound : Sound es)
    (hq : Queued k es ops) (hold : ∀ x ∈ setsOf es, k.hasSet x.table x.name = true) {r : Rule}
    (hr : r ∈ rulesOf es) : r.listed = r := by
  refine Rule.listed_eq_self fun x hx => ?_
  obtain ⟨x', hx', -, rfl⟩ := hsound.resolved r hr x hx
  obtain ⟨els', fresh', he'⟩ := mem_setsOf.1 hx'
  exact (id_eq_zero_iff hsound hq he').2 (hold x' hx')

/-- The sets of an execution are those that the input asks for. -/
theorem forall_setsOf_iff {bo : ByteOrder} {i : Input} {es : List Event} {u : Unit}
    (hexec : Render.Exec (Render.renderInput bo i) es u) {P : Str → Str → Prop} :
    (∀ x ∈ setsOf es, P x.table x.name) ↔ ∀ x ∈ i.requestedSets bo, P x.1.table x.1.name := by
  constructor
  · rintro h ⟨x, els⟩ hx
    obtain ⟨x₀, fresh, he, rfl⟩ := (mem_requestedSets hexec).1 hx
    exact h x₀ (mem_setsOf.2 ⟨els, fresh, he⟩)
  · intro h x hx
    obtain ⟨els, fresh, he⟩ := mem_setsOf.1 hx
    exact h ({ x with id := 0 }, els) ((mem_requestedSets hexec).2 ⟨x, fresh, he, rfl⟩)

/-- The rules of a run that need no new set are there at its end. -/
theorem mem_chainRules_of_old {h : Host} {i : Input} {k : Kernel} {s : State} (wf : k.WF)
    (hs : applyPolicyRulesForPodAndFamily h i (State.new k) = .ok () s)
    (hold : ∀ x ∈ i.requestedSets h.byteOrder, k.hasSet x.1.table x.1.name = true) :
    ∀ r ∈ s.requested, r.listed = r ∧ r.content ∈ s.kernel.chainRules r.table r.chain := by
  obtain ⟨es, hexec, ⟨ops, hq⟩, -, hreq, hchain⟩ := apply_ok wf hs
  have hsound := Render.sound_renderInput hexec
  rw [← forall_setsOf_iff hexec (P := fun t n => k.hasSet t n = true)] at hold
  rw [hreq]
  intro r hr
  have hlisted := listed_eq_of_old hsound hq hold hr
  refine ⟨hlisted, ?_⟩
  rw [hchain _ (hsound.rule r hr).2.2, List.mem_filter, List.contains_iff_mem, List.mem_map]
  refine ⟨mem_synced_of_requested wf hq hr, r, hr, ?_⟩
  change hashRule h r = hashRule h r.listed
  rw [hlisted]

/-- **The rules of a run survive exactly when it needed no new set.** -/
theorem requested_survive_iff {h : Host} {i : Input} {k : Kernel} {s : State} (wf : k.WF)
    (hs : applyPolicyRulesForPodAndFamily h i (State.new k) = .ok () s)
    (hnc : NoCollision h (s.requested ++ s.requested.map Rule.listed)) :
    (∀ r ∈ s.requested, r.content ∈ s.kernel.chainRules r.table r.chain) ↔
      ∀ x ∈ i.requestedSets h.byteOrder, k.hasSet x.1.table x.1.name = true := by
  refine ⟨?_, fun hold r hr => (mem_chainRules_of_old wf hs hold r hr).2⟩
  obtain ⟨es, hexec, ⟨ops, hq⟩, -, hreq, hchain⟩ := apply_ok wf hs
  have hsound := Render.sound_renderInput hexec
  rw [hreq] at hnc ⊢
  rw [← forall_setsOf_iff hexec (P := fun t n => k.hasSet t n = true)]
  intro hall x hx
  obtain ⟨r, hr, ht, hlookup⟩ := hsound.used x hx
  -- the rule is there, so its key was remembered
  have hkept := hall r hr
  rw [hchain _ (hsound.rule r hr).2.2, List.mem_filter, List.contains_iff_mem,
    List.mem_map] at hkept
  obtain ⟨-, y, hy, hkey⟩ := hkept
  have hident := hnc y (List.mem_append_left _ hy) r.listed
    (List.mem_append_right _ (List.mem_map_of_mem hr)) hkey
  -- the remembered rule looks the set up without an ID
  have hlookup' := Rule.mem_lookups_of_identity hident.symm (Rule.lookups_listed hlookup)
  obtain ⟨x', hx', ht', heq⟩ := hsound.resolved y hy _ hlookup'
  obtain ⟨els', fresh', he'⟩ := mem_setsOf.1 hx'
  simp only [Prod.mk.injEq] at heq
  have hyt : y.table = r.table := congrArg Prod.fst hident
  rw [heq.1, ← ht, ← hyt, ← ht']
  exact (id_eq_zero_iff hsound hq he').1 heq.2.symm

/-! ### Computed runs -/

/-- The end of a successful run. -/
def outcome (h : Host) (i : Input) (k : Kernel) : Option State :=
  match applyPolicyRulesForPodAndFamily h i (State.new k) with
  | .ok _ s => some s
  | .error _ _ => none

theorem outcome_eq_some {h : Host} {i : Input} {k : Kernel} {s : State} :
    outcome h i k = some s ↔ applyPolicyRulesForPodAndFamily h i (State.new k) = .ok () s := by
  unfold outcome
  split <;> rename_i hs
  · rw [hs]
    simp
  · rw [hs]
    simp

/-- A cluster without other pods. -/
def loneDeps : PolicyDeps where
  listPods _ := .ok []
  getNamespaceInfo _ := none
  getPodInfo _ := none
  mapRange _ _ _ keys := keys
  mapRange_perm _ _ _ keys := List.Perm.refl keys

/-- A second interface of a pod, named after its network. -/
def netInterface (name : Str) : InterfaceInfo :=
  ⟨str "default/" ++ name, name, str "macvlan", []⟩

/-- A pod of the namespace `default` with some interfaces and policies. -/
def podInput (interfaces : List Str) (policyMap : PolicyMap) : Input where
  deps := loneDeps
  cfg := ⟨true, false, [], []⟩
  policyMap := policyMap
  pod := ⟨str "default", str "pod", []⟩
  podInfo := ⟨interfaces.map netInterface⟩

def noPolicies : PolicyMap := ⟨[], by simp⟩

def onePolicy (policy : MultiNetworkPolicy) : PolicyMap := ⟨[policy], by simp⟩

set_option maxRecDepth 100000 in
/-- The first run for a pod deletes the rules that it just put into the base chains. -/
theorem first_run_deletes_its_rules : ∃ s,
    applyPolicyRulesForPodAndFamily Host.reliable (podInput [str "net1"] noPolicies)
      (State.new Kernel.empty) = .ok () s ∧
    ∃ r ∈ s.requested, r.content ∉ s.kernel.chainRules r.table r.chain := by
  have hrun : (outcome Host.reliable (podInput [str "net1"] noPolicies) Kernel.empty).any (fun s =>
      decide (∃ r ∈ s.requested, r.content ∉ s.kernel.chainRules r.table r.chain)) = true := by
    decide +kernel
  obtain ⟨s, hs, hlost⟩ := (Option.any_eq_true _ _).1 hrun
  exact ⟨s, outcome_eq_some.1 hs, of_decide_eq_true hlost⟩

set_option maxRecDepth 100000 in
/-- The second run finds its sets and keeps all its rules. -/
theorem second_run_keeps_its_rules : ∃ s₁ s₂,
    applyPolicyRulesForPodAndFamily Host.reliable (podInput [str "net1"] noPolicies)
      (State.new Kernel.empty) = .ok () s₁ ∧
    applyPolicyRulesForPodAndFamily Host.reliable (podInput [str "net1"] noPolicies)
      (State.new s₁.kernel) = .ok () s₂ ∧
    ∀ r ∈ s₂.requested, r.content ∈ s₂.kernel.chainRules r.table r.chain := by
  have hrun : (outcome Host.reliable (podInput [str "net1"] noPolicies) Kernel.empty).any (fun s₁ =>
      (outcome Host.reliable (podInput [str "net1"] noPolicies) s₁.kernel).any fun s₂ =>
        decide (NoCollision Host.reliable (s₂.requested ++ s₂.requested.map Rule.listed)) &&
        decide (∀ x ∈ (podInput [str "net1"] noPolicies).requestedSets Host.reliable.byteOrder,
          s₁.kernel.hasSet x.1.table x.1.name = true)) = true := by
    decide +kernel
  obtain ⟨s₁, hs₁, hrun⟩ := (Option.any_eq_true _ _).1 hrun
  obtain ⟨s₂, hs₂, hrun⟩ := (Option.any_eq_true _ _).1 hrun
  rw [Bool.and_eq_true, decide_eq_true_iff, decide_eq_true_iff] at hrun
  rw [outcome_eq_some] at hs₁ hs₂
  obtain ⟨-, -, -, hwf, -⟩ := apply_ok Kernel.WF.empty hs₁
  exact ⟨s₁, s₂, hs₁, hs₂, (requested_survive_iff hwf hs₂ hrun.1).2 hrun.2⟩

end MultiNetPolicy
