import MultiNetPolicy.Equiv.Calls
import MultiNetPolicy.Equiv.History
import MultiNetPolicy.Equiv.Survival
import MultiNetPolicy.Lib.Reconcile

/-!
# One chain over one run

What a run leaves in a chain depends on the calls for this chain and on what was there before.  The
rules of entry and policy chains look no sets up, and their counters are where the rest of the rule
tells (`Rule.Normal`), so that a key tells the whole rule: the cleanup keeps exactly the rules that
were asked for.

* `synced_appendCalls`: a chain to which rules are appended, unforced.
* `filter_tracked`: the cleanup.
* `Ran`: what is known of a successful run.
* `Ran.policyChain`: the chain of a policy at the end of a run.
-/

namespace MultiNetPolicy

open ByteString Reconcile

/-! ### Rules that their key tells -/

/-- The hashed expressions with the counter put back: before the verdict, or at the end. -/
def withCounter (l : List Expr) : List Expr :=
  match l.getLast? with
  | some (.verdict kind chain) => l.dropLast ++ [.counter, .verdict kind chain]
  | _ => l ++ [.counter]

/-- A rule without lookups whose counter is where the other expressions tell. -/
structure Rule.Normal (r : Rule) : Prop where
  lookups : r.lookups = []
  exprs : r.exprs = withCounter (r.exprs.filter Expr.isHashed)

namespace Rule

/-- A rule without lookups is listed as it was sent. -/
theorem content_eq_erase {r : Rule} (h : r.lookups = []) : r.content = r.erase := by
  unfold content
  rw [listed_eq_self]
  intro x hx
  rw [h] at hx
  cases hx

theorem Normal.content {r : Rule} (h : r.Normal) : r.content.Normal := by
  rw [content_eq_erase h.lookups]
  exact ⟨h.lookups, h.exprs⟩

/-- The key of a normal rule tells its content. -/
theorem Normal.content_eq {r r' : Rule} (h : r.Normal) (h' : r'.Normal)
    (heq : r.identity = r'.identity) : r.content = r'.content := by
  rw [content_eq_erase h.lookups, content_eq_erase h'.lookups]
  simp only [identity, Prod.mk.injEq] at heq
  obtain ⟨ht, hc, hu, he⟩ := heq
  unfold erase
  rw [ht, hc, hu, h.exprs, he, ← h'.exprs]

end Rule

/-! ### The calls for one chain -/

/-- What is added to a chain are rules of that chain. -/
theorem addedBy_callsIn (t c : Str) (action : RuleAction) : ∀ es : List Event,
    (addedBy action es).filter (Rule.inChain t c) = addedBy action (callsIn t c es)
  | [] => rfl
  | e :: es => by
    have ih := addedBy_callsIn t c action es
    rw [addedBy_cons, List.filter_append, ih]
    cases e with
    | chain x => rfl
    | set x els fresh => rfl
    | rule r action' force isNew =>
      -- a call adds rules in its own chain only
      have hone : ∀ x ∈ addedBy action [.rule r action' force isNew],
          x.inChain t c = r.inChain t c := by
        intro x hx
        obtain ⟨_, _, _, hmem⟩ := mem_addedBy.1 hx
        cases List.mem_singleton.1 hmem
        rfl
      by_cases hc : r.inChain t c = true
      · have hcalls : callsIn t c (.rule r action' force isNew :: es) =
            .rule r action' force isNew :: callsIn t c es := List.filter_cons_of_pos hc
        rw [hcalls, addedBy_cons action _ (callsIn t c es)]
        congr 1
        exact List.filter_eq_self.2 fun x hx => (hone x hx).trans hc
      · have hcalls : callsIn t c (.rule r action' force isNew :: es) = callsIn t c es :=
          List.filter_cons_of_neg hc
        rw [hcalls, List.append_left_eq_self, List.filter_eq_nil_iff]
        intro x hx
        rw [hone x hx]
        exact hc

theorem inView_addedBy (t c : Str) (action : RuleAction) (es : List Event) :
    inView t c (addedBy action es) = (addedBy action (callsIn t c es)).map Rule.content := by
  unfold inView
  rw [addedBy_callsIn]

/-- Rules are deleted when a call for them is forced. -/
theorem mem_deletedBy {k : Kernel} {es : List Event} {n : Nat} : n ∈ deletedBy k es ↔
    ∃ r action isNew e, .rule r action true isNew ∈ es ∧ k.findRule r = some e ∧ e.handle = n := by
  unfold deletedBy
  rw [List.mem_filterMap]
  constructor
  · rintro ⟨e, he, hd⟩
    cases e with
    | chain c => cases hd
    | set s els fresh => cases hd
    | rule r action force isNew =>
      simp only [Option.ite_none_right_eq_some, Option.map_eq_some_iff] at hd
      obtain ⟨rfl, e, hf, hn⟩ := hd
      exact ⟨r, action, isNew, e, he, hf, hn⟩
  · rintro ⟨r, action, isNew, e, he, hf, hn⟩
    refine ⟨_, he, ?_⟩
    simp [hf, hn]

/-- The rules of a chain that a batch deletes are deleted by the calls for this chain. -/
theorem mem_deletedBy_callsIn {k : Kernel} (wf : k.WF) {es : List Event} {r : Rule}
    (hr : r ∈ k.rules) {t c : Str} (hc : r.inChain t c = true) :
    r.handle ∈ deletedBy k es ↔ r.handle ∈ deletedBy k (callsIn t c es) := by
  rw [mem_deletedBy, mem_deletedBy]
  constructor
  · rintro ⟨r', action, isNew, e, he, hf, hn⟩
    refine ⟨r', action, isNew, e, List.mem_filter.2 ⟨he, ?_⟩, hf, hn⟩
    obtain ⟨r₀, hr₀, ht, hc', hh, -⟩ := Kernel.exists_of_findRule hf
    obtain rfl : r₀ = r := List.inj_on_of_nodup_map wf.handles_nodup hr₀ hr (hh.trans hn)
    obtain ⟨htr, hcr⟩ := Rule.inChain_iff.1 hc
    exact Rule.inChain_iff.2 ⟨ht.symm.trans htr, hc'.symm.trans hcr⟩
  · rintro ⟨r', action, isNew, e, he, hf, hn⟩
    exact ⟨r', action, isNew, e, List.mem_of_mem_filter he, hf, hn⟩

/-- **Only the calls for a chain matter to it.** -/
theorem synced_eq_callsIn {k : Kernel} (wf : k.WF) (es : List Event) (t c : Str) :
    synced k es t c = ((addedBy .insertRule (callsIn t c es)).map Rule.content).reverse ++
      inView t c (k.rules.filter fun r => !(deletedBy k (callsIn t c es)).contains r.handle) ++
      (addedBy .addRule (callsIn t c es)).map Rule.content := by
  unfold synced
  rw [inView_addedBy, inView_addedBy]
  congr 2
  unfold inView
  rw [List.filter_filter, List.filter_filter]
  congr 1
  refine List.filter_congr fun r hr => ?_
  cases hc : r.inChain t c with
  | false => rfl
  | true =>
    have hiff := @mem_deletedBy_callsIn k wf es r hr t c hc
    rw [← List.contains_iff_mem, ← List.contains_iff_mem, ← Bool.eq_iff_iff] at hiff
    rw [hiff]

/-! ### Answers -/

/-- A rule is new to a ruleset. -/
def Kernel.lacks (k : Kernel) (r : Rule) : Bool := (k.findRule r).isNone

/-- Calls are answered by what the ruleset lacks. -/
theorem Queued.answers {k : Kernel} {es : List Event} {ops : List Op} (hq : Queued k es ops) :
    Answers k.lacks es := by
  intro r action force isNew he
  obtain ⟨ops', hqueues, -⟩ := hq.queues_of_mem _ he
  simp only [Event.Queues] at hqueues
  unfold Kernel.lacks
  cases hf : k.findRule r with
  | none =>
    rw [hf] at hqueues
    exact hqueues.1
  | some e =>
    rw [hf] at hqueues
    exact hqueues.1

/-- A rule that a run may ask for in a chain where keys tell rules. -/
structure Rule.Settled (t c : Str) (r : Rule) : Prop where
  plain : r.Plain
  handle : r.handle = 0
  normal : r.Normal
  inChain : r.inChain t c = true

theorem Rule.Settled.content_eq {t c : Str} {r : Rule} (hr : r.Settled t c) : r.content = r := by
  rw [Rule.content_eq_erase hr.normal.lookups, Rule.erase, ← hr.handle]

/-- The ruleset lacks a rule that its chain does not list. -/
theorem Kernel.lacks_eq {k : Kernel} {r : Rule} {t c : Str} (hr : r.Settled t c) :
    k.lacks r = decide (r ∉ k.chainRules t c) := by
  obtain ⟨ht, hc⟩ := Rule.inChain_iff.1 hr.inChain
  unfold lacks
  rw [Bool.eq_iff_iff, decide_eq_true_eq, Option.isNone_iff_eq_none,
    Kernel.findRule_eq_none_iff hr.plain, ← Rule.content_eq_erase hr.normal.lookups, hr.content_eq,
    ht, hc]

/-- Unforced calls append what is missing. -/
theorem addedBy_appendCalls (ans : Rule → Bool) : ∀ rs : List Rule,
    addedBy .addRule (appendCalls ans rs) = rs.filter ans ∧
      addedBy .insertRule (appendCalls ans rs) = []
  | [] => ⟨rfl, rfl⟩
  | r :: rs => by
    obtain ⟨ih₁, ih₂⟩ := addedBy_appendCalls ans rs
    change addedBy .addRule (.rule r .addRule false (ans r) :: appendCalls ans rs) = _ ∧
      addedBy .insertRule (.rule r .addRule false (ans r) :: appendCalls ans rs) = _
    rw [addedBy_cons, addedBy_cons .insertRule, ih₁, ih₂]
    cases hr : ans r <;> simp [addedBy, hr]

theorem deletedBy_appendCalls (k : Kernel) (ans : Rule → Bool) (rs : List Rule) :
    deletedBy k (appendCalls ans rs) = [] := by
  rw [List.eq_nil_iff_forall_not_mem]
  intro n hn
  obtain ⟨r, action, isNew, e, he, -⟩ := mem_deletedBy.1 hn
  obtain ⟨r', -, heq⟩ := List.mem_map.1 he
  cases heq

theorem map_content_of_settled {t c : Str} {rs : List Rule} (hrs : ∀ r ∈ rs, r.Settled t c) :
    rs.map Rule.content = rs :=
  (List.map_congr_left fun r hr => (hrs r hr).content_eq).trans (List.map_id rs)

/-- The rules that are appended are the missing ones. -/
theorem map_filter_lacks {k : Kernel} {t c : Str} {rs : List Rule}
    (hrs : ∀ r ∈ rs, r.Settled t c) :
    (rs.filter k.lacks).map Rule.content = rs.filter (· ∉ k.chainRules t c) := by
  rw [map_content_of_settled fun r hr => hrs r (List.mem_of_mem_filter hr)]
  exact List.filter_congr fun r hr => Kernel.lacks_eq (hrs r hr)

/-- A chain to which rules are appended. -/
theorem synced_appendCalls {k : Kernel} (wf : k.WF) {es : List Event} {t c : Str} {rs : List Rule}
    (hrs : ∀ r ∈ rs, r.Settled t c) (hcalls : callsIn t c es = appendCalls k.lacks rs) :
    synced k es t c = k.chainRules t c ++ rs.filter (· ∉ k.chainRules t c) := by
  rw [synced_eq_callsIn wf, hcalls, (addedBy_appendCalls _ _).1, (addedBy_appendCalls _ _).2,
    deletedBy_appendCalls, map_filter_lacks hrs, Kernel.chainRules_eq]
  congr 1
  refine congrArg (inView t c) (List.filter_eq_self.2 fun r _ => rfl)

/-! ### The cleanup -/

/-- The keys that the cleanup knows are those of the rules that were asked for. -/
theorem filter_tracked {h : Host} {es : List Event} {t c : Str} {l : List Rule}
    (hnc : NoCollision h (rulesOf es ++ l)) (hl : ∀ r ∈ l, r.Normal ∧ r.inChain t c = true)
    {rs : List Rule} (hrs : ∀ r ∈ rs, r.Settled t c)
    (hmem : ∀ r, r ∈ rs ↔ r ∈ rulesOf es ∧ r.inChain t c = true) :
    (l.filter fun r => ((rulesOf es).map (hashRule h)).contains (hashRule h r)) =
      l.filter fun r => r.content ∈ rs := by
  refine List.filter_congr fun r hr => ?_
  rw [Bool.eq_iff_iff, List.contains_iff_mem, decide_eq_true_eq, List.mem_map]
  obtain ⟨hnormal, hc⟩ := hl r hr
  constructor
  · rintro ⟨y, hy, hkey⟩
    have hident := hnc y (List.mem_append_left _ hy) r (List.mem_append_right _ hr) hkey
    simp only [Rule.identity, Prod.mk.injEq] at hident
    obtain ⟨htr, hcr⟩ := Rule.inChain_iff.1 hc
    have hyin : y.inChain t c = true :=
      Rule.inChain_iff.2 ⟨hident.1.trans htr, hident.2.1.trans hcr⟩
    have hyrs := (hmem y).2 ⟨hy, hyin⟩
    have heq : y.content = r.content := (hrs y hyrs).normal.content_eq hnormal (by
      simp only [Rule.identity, Prod.mk.injEq]
      exact hident)
    rw [← heq, (hrs y hyrs).content_eq]
    exact hyrs
  · intro hrs'
    refine ⟨r.content, ((hmem _).1 hrs').1, ?_⟩
    rw [Rule.content_eq_erase hnormal.lookups, hashRule_erase]

/-! ### A run -/

/-- The calls of a run that got to its main flush. -/
structure Rendering (bo : ByteOrder) (i : Input) (k : Kernel) (es : List Event) : Prop where
  wf : k.WF
  exec : Render.Exec (Render.renderInput bo i) es ()
  answers : Answers k.lacks es

/-- What is known of a successful run. -/
structure Ran (h : Host) (i : Input) (k : Kernel) (s : State) (es : List Event) : Prop
    extends Rendering h.byteOrder i k es where
  requested : s.requested = rulesOf es
  chains : ∀ t, isManaged t = true → ∀ c, s.kernel.chainRules t c =
    (synced k es t c).filter fun r => ((rulesOf es).map (hashRule h)).contains (hashRule h r)

/-- A successful run. -/
theorem exists_ran {h : Host} {i : Input} {k : Kernel} {s : State} (wf : k.WF)
    (hs : applyPolicyRulesForPodAndFamily h i (State.new k) = .ok () s) : ∃ es, Ran h i k s es := by
  obtain ⟨es, hexec, ⟨ops, hq⟩, -, hreq, hchain⟩ := apply_ok wf hs
  exact ⟨es, ⟨wf, hexec, hq.answers⟩, hreq, hchain⟩

/-- The rules of the daemon's tables, as they are listed. -/
def Kernel.managedRules (k : Kernel) : List Rule :=
  (k.rules.filter fun r => isManaged r.table).map Rule.listed

/-- The keys of a run tell the rules that it asks for from each other and from those that are
there. -/
def KeysTell (h : Host) (k : Kernel) (s : State) : Prop :=
  NoCollision h (s.requested ++ k.managedRules)

instance (h : Host) (k : Kernel) (s : State) : Decidable (KeysTell h k s) :=
  inferInstanceAs (Decidable (NoCollision h _))

/-- Keys do not depend on handles. -/
theorem NoCollision.of_erase {h : Host} {rules rules' : List Rule} (hnc : NoCollision h rules)
    (hsame : ∀ x ∈ rules', ∃ y ∈ rules, y.erase = x.erase) : NoCollision h rules' := by
  intro x hx x' hx' hkey
  obtain ⟨y, hy, hyx⟩ := hsame x hx
  obtain ⟨y', hy', hyx'⟩ := hsame x' hx'
  have hid : ∀ {a b : Rule}, a.erase = b.erase → a.identity = b.identity :=
    fun {a b} hab => show a.erase.identity = b.erase.identity by rw [hab]
  have hhash : ∀ {a b : Rule}, a.erase = b.erase → hashRule h a = hashRule h b := fun hab => by
    rw [← hashRule_erase, hab, hashRule_erase]
  rw [← hid hyx, ← hid hyx']
  exact hnc y hy y' hy' (by rw [hhash hyx, hhash hyx', hkey])

theorem Rule.content_content (r : Rule) : r.content.content = r.content :=
  content_eq_of_erase rfl

/-- The rules that are asked for in a chain. -/
theorem mem_rulesOf_callsIn {t c : Str} {es : List Event} {r : Rule} :
    r ∈ rulesOf (callsIn t c es) ↔ r ∈ rulesOf es ∧ r.inChain t c = true := by
  simp only [mem_rulesOf, callsIn, List.mem_filter]
  constructor
  · rintro ⟨action, force, isNew, he, hc⟩
    exact ⟨⟨action, force, isNew, he⟩, hc⟩
  · rintro ⟨⟨action, force, isNew, he⟩, hc⟩
    exact ⟨action, force, isNew, he, hc⟩

/-- A rule of a chain was there or is asked for. -/
theorem mem_synced {k : Kernel} (wf : k.WF) {es : List Event} {t c : Str} {x : Rule}
    (hx : x ∈ synced k es t c) :
    x ∈ k.chainRules t c ∨ ∃ r ∈ rulesOf (callsIn t c es), r.content = x := by
  have hadded : ∀ {action : RuleAction},
      x ∈ (addedBy action (callsIn t c es)).map Rule.content →
      ∃ r ∈ rulesOf (callsIn t c es), r.content = x := by
    intro action hmem
    obtain ⟨r, hr, rfl⟩ := List.mem_map.1 hmem
    obtain ⟨force, isNew, -, he⟩ := mem_addedBy.1 hr
    exact ⟨r, mem_rulesOf.2 ⟨_, force, isNew, he⟩, rfl⟩
  rw [synced_eq_callsIn wf, List.mem_append, List.mem_append, List.mem_reverse] at hx
  rcases hx with (hx | hx) | hx
  · exact .inr (hadded hx)
  · obtain ⟨r, hr, hc, rfl⟩ := mem_inView.1 hx
    rw [Kernel.chainRules_eq]
    exact .inl (mem_inView.2 ⟨r, List.mem_of_mem_filter hr, hc, rfl⟩)
  · exact .inr (hadded hx)

namespace Ran

variable {h : Host} {i : Input} {k : Kernel} {s : State} {es : List Event}

/-- **The cleanup keeps what was asked for.** -/
theorem chainRules (hr : Ran h i k s es) (hkeys : KeysTell h k s) {c : Str}
    (hsettled : ∀ r ∈ rulesOf (callsIn filterTableName c es), r.Settled filterTableName c)
    (hold : ∀ x ∈ k.chainRules filterTableName c, x.Normal) :
    s.kernel.chainRules filterTableName c =
      (synced k es filterTableName c).filter (· ∈ rulesOf (callsIn filterTableName c es)) := by
  have hmanaged : isManaged filterTableName = true := by decide
  -- where the rules of the chain come from
  have hfrom : ∀ x ∈ synced k es filterTableName c, x.Normal ∧
      x.inChain filterTableName c = true ∧ x.content = x ∧
      ∃ y ∈ s.requested ++ k.managedRules, y.erase = x.erase := by
    intro x hx
    rcases mem_synced hr.wf hx with hx | ⟨r, hmem, rfl⟩
    · have hnormal := hold x hx
      rw [Kernel.chainRules_eq] at hx
      obtain ⟨r, hrk, hc, rfl⟩ := mem_inView.1 hx
      refine ⟨hnormal, Rule.inChain_iff.2 hc, Rule.content_content r, r.listed, ?_, rfl⟩
      refine List.mem_append_right _ (List.mem_map_of_mem (List.mem_filter.2 ⟨hrk, ?_⟩))
      rw [hc.1]
      exact hmanaged
    · have hset := hsettled r hmem
      refine ⟨hset.normal.content, hset.inChain, Rule.content_content r, r, ?_, ?_⟩
      · rw [hr.requested]
        exact List.mem_append_left _ (mem_rulesOf_callsIn.1 hmem).1
      · rw [Rule.content_eq_erase hset.normal.lookups]
        rfl
  have hnc : NoCollision h (rulesOf es ++ synced k es filterTableName c) := by
    refine NoCollision.of_erase hkeys fun x hx => ?_
    rcases List.mem_append.1 hx with hx | hx
    · exact ⟨x, by rw [hr.requested]; exact List.mem_append_left _ hx, rfl⟩
    · exact (hfrom x hx).2.2.2
  rw [hr.chains _ hmanaged, filter_tracked hnc
    (fun x hx => ⟨(hfrom x hx).1, (hfrom x hx).2.1⟩) hsettled fun r => mem_rulesOf_callsIn]
  exact List.filter_congr fun x hx => by rw [(hfrom x hx).2.2.1]

end Ran

/-! ### Policy chains -/

theorem Rule.Built.settled {r : Rule} {t c : Str} (hb : r.Built t []) (hc : r.chain = c)
    (hexprs : r.exprs = withCounter (r.exprs.filter Expr.isHashed)) : r.Settled t c :=
  ⟨hb.plain, hb.handle, ⟨hb.lookups, hexprs⟩, Rule.inChain_iff.2 ⟨hb.table, hc⟩⟩

theorem settled_of_mem_policyBlock {bo : ByteOrder} {d : Direction} {p : MultiNetworkPolicy}
    {index : Nat} {r : Rule} (hr : r ∈ policyBlock bo d p index) :
    r.Settled filterTableName (chainNameOf d p .policy) := by
  simp only [policyBlock, Render.blockRules, List.mem_cons, List.not_mem_nil, or_false] at hr
  rcases hr with rfl | rfl | rfl | rfl
  · exact Rule.Built.settled (Render.built_markResetRule (by rfl) _) (by rfl) (by rfl)
  · exact Rule.Built.settled (Render.built_policyJumpRule (by rfl)) (by rfl) (by rfl)
  · exact Rule.Built.settled (Render.built_policyJumpRule (by rfl)) (by rfl) (by rfl)
  · exact Rule.Built.settled (Render.built_markCheckRule (by rfl) _) (by rfl) (by rfl)

theorem settled_of_mem_policyRules {bo : ByteOrder} {d : Direction} {p : MultiNetworkPolicy}
    {r : Rule} (hr : r ∈ policyRules bo d p) :
    r.Settled filterTableName (chainNameOf d p .policy) := by
  obtain ⟨x, -, hr⟩ := List.mem_flatMap.1 hr
  exact settled_of_mem_policyBlock hr

/-- The rules that are asked for by appending. -/
theorem rulesOf_appendCalls (ans : Rule → Bool) (rs : List Rule) :
    rulesOf (appendCalls ans rs) = rs := by
  unfold rulesOf appendCalls
  rw [List.filterMap_map]
  exact List.filterMap_some

/-- **A policy chain at the end of a run.** -/
theorem Ran.policyChain {h : Host} {i : Input} {k : Kernel} {s : State} {es : List Event}
    (hr : Ran h i k s es) (hkeys : KeysTell h k s) (hnd : i.chainNames.Nodup) {d : Direction}
    {p : InternalPolicy} (hp : p ∈ i.policiesIn d)
    (hold : ∀ x ∈ k.chainRules filterTableName (chainNameOf d p.policy .policy), x.Normal) :
    s.kernel.chainRules filterTableName (chainNameOf d p.policy .policy) =
      reconcile (k.chainRules filterTableName (chainNameOf d p.policy .policy))
        (policyRules h.byteOrder d p.policy) := by
  have hcalls := Render.callsIn_policyChain hr.exec hr.answers hnd hp
  have hrules : rulesOf (callsIn filterTableName (chainNameOf d p.policy .policy) es) =
      policyRules h.byteOrder d p.policy := by rw [hcalls, rulesOf_appendCalls]
  rw [hr.chainRules hkeys (by rw [hrules]; exact fun r => settled_of_mem_policyRules) hold, hrules,
    synced_appendCalls hr.wf (fun r => settled_of_mem_policyRules) hcalls]
  exact filter_append_missing _ _

/-- A chain that a run asks nothing for is empty after it. -/
theorem Ran.chainRules_eq_nil {h : Host} {i : Input} {k : Kernel} {s : State} {es : List Event}
    (hr : Ran h i k s es) (hkeys : KeysTell h k s) {c : Str}
    (hnone : callsIn filterTableName c es = [])
    (hold : ∀ x ∈ k.chainRules filterTableName c, x.Normal) :
    s.kernel.chainRules filterTableName c = [] := by
  rw [hr.chainRules hkeys (by rw [hnone]; simp [rulesOf]) hold, hnone, List.filter_eq_nil_iff]
  intro x _
  simp [rulesOf]

end MultiNetPolicy
