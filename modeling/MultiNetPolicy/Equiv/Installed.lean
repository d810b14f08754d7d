import MultiNetPolicy.Equiv.Enforced
import MultiNetPolicy.Equiv.Fixpoint

/-!
# Rulesets that runs leave

When a run enforces its policies (`Enforced`).  The main flush of a first run does, but the cleanup
behind it deletes every rule that looks up a set of the run.  The second run finds the sets and
appends those rules again, and from then on the ruleset stays.

* `enforced_of_commit`: the main flush of a first run.
* `TwoRuns.enforced`: two runs in a row.
-/

namespace MultiNetPolicy

open ByteString StateExcept Render

/-! ### Sets -/

/-- Requests for one set want the same elements in a set of the same kind. -/
def Input.SetsCoincide (i : Input) (bo : ByteOrder) : Prop :=
  ∀ x ∈ i.requestedSets bo, ∀ y ∈ i.requestedSets bo,
    x.1.table = y.1.table → x.1.name = y.1.name →
      x.1.interval = y.1.interval ∧ contentsOf x.2 ⊆ contentsOf y.2

instance (i : Input) (bo : ByteOrder) : Decidable (i.SetsCoincide bo) :=
  inferInstanceAs (Decidable (∀ x ∈ i.requestedSets bo, ∀ y ∈ i.requestedSets bo,
    x.1.table = y.1.table → x.1.name = y.1.name →
      x.1.interval = y.1.interval ∧ contentsOf x.2 ⊆ contentsOf y.2))

/-- Coinciding requests agree. -/
theorem Input.SetsCoincide.setsAgree {i : Input} {bo : ByteOrder} (hco : i.SetsCoincide bo) :
    i.SetsAgree bo := by
  have hsub : ∀ x ∈ i.requestedSets bo, ∀ y ∈ i.requestedSets bo, x.1.table = y.1.table →
      x.1.name = y.1.name → ∀ d ∈ x.2, ∃ e ∈ y.2, e.key = d.key := by
    intro x hx y hy ht hn d hd
    have hmem : (d.key, d.intervalEnd) ∈ contentsOf x.2 := mem_contentsOf.2 ⟨d, hd, rfl, rfl⟩
    obtain ⟨e, he, hkey, -⟩ := mem_contentsOf.1 ((hco x hx y hy ht hn).2 hmem)
    exact ⟨e, he, hkey⟩
  exact fun x hx y hy ht hn => ⟨hsub x hx y hy ht hn, hsub y hy x hx ht.symm hn.symm⟩

/-- The calls of an execution for the set of one of them want what that one wants. -/
def Coincides (es : List Event) (s : NftSet) (els : List SetElement) : Prop :=
  ∀ s' els' fresh', .set s' els' fresh' ∈ es → s'.table = s.table → s'.name = s.name →
    s'.interval = s.interval ∧ ∀ y, y ∈ contentsOf els' ↔ y ∈ contentsOf els

/-- All calls for one set want the same. -/
theorem Input.SetsCoincide.coincides {i : Input} {bo : ByteOrder} (hco : i.SetsCoincide bo)
    {es : List Event} {u : Unit} (hexec : Exec (renderInput bo i) es u) {s : NftSet}
    {els : List SetElement} {fresh : Bool} (he : .set s els fresh ∈ es) : Coincides es s els := by
  intro s' els' fresh' he' ht hn
  have hs := (mem_requestedSets hexec).2 ⟨s, fresh, he, rfl⟩
  have hs' := (mem_requestedSets hexec).2 ⟨s', fresh', he', rfl⟩
  obtain ⟨hinterval, hsub⟩ := hco _ hs' _ hs ht hn
  exact ⟨hinterval, fun y => ⟨fun hy => hsub hy, fun hy => (hco _ hs _ hs' ht.symm hn.symm).2 hy⟩⟩

section Batch

variable {k k' : Kernel} {es : List Event} {ops : List Op} {s : NftSet} {els : List SetElement}
  {fresh : Bool}

/-- A set that was not there, or that was as it is wanted. -/
def Kernel.ReadyFor (k : Kernel) (s : NftSet) (els : List SetElement) : Prop :=
  (k.findSet s.table s.name = none ∧ k.getElements s.table s.name = []) ∨ k.HoldsSet s els

/-- What a set holds depends on its elements. -/
theorem Kernel.HoldsSet.congr {x : NftSet}
    (hfind : k'.findSet x.table x.name = k.findSet s.table s.name)
    (hels : k'.getElements x.table x.name = k.getElements s.table s.name)
    (hinterval : x.interval = s.interval) (hk : k.HoldsSet s els) : k'.HoldsSet x els := by
  refine ⟨?_, ?_⟩
  · rw [hfind, hinterval]
    exact hk.found
  · rw [hels]
    exact hk.contents

theorem Kernel.ReadyFor.congr {x : NftSet}
    (hfind : k'.findSet x.table x.name = k.findSet s.table s.name)
    (hels : k'.getElements x.table x.name = k.getElements s.table s.name)
    (hinterval : x.interval = s.interval) (hk : k.ReadyFor s els) : k'.ReadyFor x els := by
  rcases hk with ⟨hnone, hempty⟩ | hk
  · exact .inl ⟨hfind.trans hnone, hels.trans hempty⟩
  · exact .inr (hk.congr hfind hels hinterval)

/-- **A set after a batch**: calls that coincide leave what they want. -/
theorem Queued.holdsSet (hq : Queued k es ops) (he : .set s els fresh ∈ es)
    (hfind : k'.findSet s.table s.name = k.findSet s.table s.name)
    (hsame : k'.getElements s.table s.name = k.getElements s.table s.name)
    (hco : Coincides es s els) (hk : k.ReadyFor s els) : (k'.commit ops).HoldsSet s els := by
  have hremoves : ∀ op ∈ ops, op.removes = false :=
    hq.forall_mem fun e _ ops' hops' op hop => (hops'.table op hop).2
  -- all calls for the set want the same
  have hputs : ∀ {e : Event} {y : Str × Bool}, e ∈ es → e.Puts k s.table s.name y →
      y ∈ contentsOf els := by
    intro e y he' hputs
    cases e with
    | chain c => exact absurd hputs id
    | rule r action force isNew => exact absurd hputs id
    | set s' els' fresh' => exact ((hco s' els' fresh' he' hputs.1.1 hputs.1.2).2 y).1 hputs.2.1
  -- the set is new, or it holds what is wanted already
  rcases hk with ⟨hnone, hempty⟩ | ⟨⟨x, hx, hinterval⟩, hcontents⟩
  · refine ⟨?_, fun y => ?_⟩
    · -- the first call for the set has made it
      rw [hq.findSet hnone, hfind, hnone, Option.none_or]
      have hsome : (es.findSome? (Event.setFor s.table s.name)).isSome = true := by
        rw [List.isSome_findSome?, List.any_eq_true]
        exact ⟨_, he, by simp [Event.setFor]⟩
      obtain ⟨x, hx⟩ := Option.isSome_iff_exists.1 hsome
      obtain ⟨e, he', hfor⟩ := List.exists_of_findSome?_eq_some hx
      refine ⟨x, hx, ?_⟩
      cases e with
      | chain c => cases hfor
      | rule r action force isNew => cases hfor
      | set s' els' fresh' =>
        simp only [Event.setFor, Option.ite_none_right_eq_some, Option.some.injEq] at hfor
        obtain ⟨⟨ht, hn⟩, rfl⟩ := hfor
        exact (hco s' els' fresh' he' ht hn).1
    · rw [hq.mem_contents, hsame, hempty]
      constructor
      · rintro (⟨hin, -⟩ | ⟨e, he', hput⟩)
        · cases hin
        · exact hputs he' hput
      · intro hy
        refine .inr ⟨_, he, ⟨rfl, rfl⟩, hy, fun _ d hd => ?_⟩
        rw [hempty] at hd
        cases hd
  · refine ⟨⟨x, ?_, hinterval⟩, fun y => ?_⟩
    · rw [Kernel.findSet_commit hremoves, hfind, hx, Option.some_or]
    · rw [hq.mem_contents, hsame, hcontents]
      constructor
      · rintro (⟨hin, -⟩ | ⟨e, he', hput⟩)
        · exact hin
        · exact hputs he' hput
      · -- every call wants the element, so none takes it out
        intro hy
        refine .inl ⟨hy, fun e he' hdrops => ?_⟩
        cases e with
        | chain c => exact hdrops
        | rule r action force isNew => exact hdrops
        | set s' els' fresh' =>
          obtain ⟨⟨ht, hn⟩, -, -, hno⟩ := hdrops
          obtain ⟨d, hd, hkey, -⟩ := mem_contentsOf.1 (((hco s' els' fresh' he' ht hn).2 y).2 hy)
          exact hno d hd hkey

end Batch

/-! ### Chains -/

theorem Event.Appends.mono {P Q : Rule → Prop} {e : Event} (he : e.Appends P)
    (h : ∀ r, P r → Q r) : e.Appends Q := by
  cases e with
  | chain c => trivial
  | set s els fresh => trivial
  | rule r action force isNew => exact ⟨he.1, he.2.1, h r he.2.2⟩

/-- The chains of a policy are only appended to. -/
theorem appends_applyPolicyRules {bo : ByteOrder} {deps : PolicyDeps} {d : Direction}
    {podInfo : PodInfo} {networks : List Str} {p : MultiNetworkPolicy} {es : List Event} {u : Unit}
    (h : Exec (applyPolicyRules bo deps (policyChainFullName d.entry p) (policyChainOf d.entry p)
      podInfo networks p) es u) : ∀ e ∈ es, e.Appends fun _ => True := by
  obtain ⟨ess, rfl, hess⟩ := exec_applyPolicyRules h
  intro e he
  obtain ⟨block, hblock, he⟩ := List.mem_flatten.1 he
  obtain ⟨x, -, direction, hx⟩ := exists_mem_of_forall₂ hess hblock
  obtain ⟨b₀, b₁, b₂, b₃, rest₁, rest₂, rfl, h₁, h₂⟩ := exec_applyPolicyRule rfl hx
  simp only [List.mem_cons, List.mem_append, List.not_mem_nil, or_false] at he
  rcases he with rfl | rfl | rfl | he | rfl | rfl | he | rfl
  · exact ⟨rfl, rfl, trivial⟩
  · trivial
  · exact ⟨rfl, rfl, trivial⟩
  · exact (h₁ e he).mono fun _ _ => trivial
  · trivial
  · exact ⟨rfl, rfl, trivial⟩
  · exact (h₂ e he).mono fun _ _ => trivial
  · exact ⟨rfl, rfl, trivial⟩

section Empty

variable {k : Kernel} {es : List Event} {ops : List Op} {t c : Str}

/-- A chain without rules lacks every rule. -/
theorem Kernel.lacks_of_empty (hempty : k.chainRules t c = []) {r : Rule}
    (hr : r.inChain t c = true) : k.lacks r = true := by
  rw [Kernel.lacks, Option.isNone_iff_eq_none]
  by_contra hfound
  obtain ⟨e, he⟩ := Option.ne_none_iff_exists'.1 hfound
  obtain ⟨r₀, hr₀, ht, hc, -, -⟩ := Kernel.exists_of_findRule he
  obtain ⟨rfl, rfl⟩ := Rule.inChain_iff.1 hr
  have hin : r₀.content ∈ k.chainRules r.table r.chain := by
    rw [Kernel.chainRules_eq]
    exact mem_inView.2 ⟨r₀, hr₀, ⟨ht, hc⟩, rfl⟩
  rw [hempty] at hin
  cases hin

/-- **A chain that is only appended to** keeps its rules; those it lacks follow in the order in
which they were asked for. -/
theorem synced_of_appends (wf : k.WF) (hq : Queued k es ops)
    (happend : ∀ e ∈ callsIn t c es, e.Appends fun _ => True) :
    synced k es t c = k.chainRules t c ++
      ((rulesOf (callsIn t c es)).filter k.lacks).map Rule.content := by
  -- every call in the chain appends, and none is forced
  have hcall : ∀ e ∈ callsIn t c es, ∃ r, e = .rule r .addRule false (k.lacks r) := by
    intro e he
    obtain ⟨hmem, hin⟩ := List.mem_filter.1 he
    have happ := happend e he
    cases e with
    | chain x => cases hin
    | set s els fresh => cases hin
    | rule r action force isNew =>
      obtain ⟨rfl, rfl, -⟩ := happ
      rw [hq.answers r _ _ _ hmem]
      exact ⟨r, rfl⟩
  have hinsert : addedBy .insertRule (callsIn t c es) = [] := by
    refine List.filterMap_eq_nil_iff.2 fun e he => ?_
    obtain ⟨r, rfl⟩ := hcall e he
    rfl
  have hdelete : deletedBy k (callsIn t c es) = [] := by
    refine List.filterMap_eq_nil_iff.2 fun e he => ?_
    obtain ⟨r, rfl⟩ := hcall e he
    rfl
  have hadd : addedBy .addRule (callsIn t c es) = (rulesOf (callsIn t c es)).filter k.lacks := by
    rw [rulesOf, List.filter_filterMap]
    refine List.filterMap_congr fun e he => ?_
    obtain ⟨r, rfl⟩ := hcall e he
    show (if _ then some r else none) = (some r).filter k.lacks
    rw [Option.filter_some]
    simp only [Bool.false_eq_true, false_or, true_and]
  rw [synced_eq_callsIn wf, hinsert, hdelete, hadd, Kernel.chainRules_eq]
  simp

/-- The same for a chain without rules. -/
theorem synced_of_empty (wf : k.WF) (hq : Queued k es ops) (hempty : k.chainRules t c = [])
    (happend : ∀ e ∈ callsIn t c es, e.Appends fun _ => True) :
    synced k es t c = (rulesOf (callsIn t c es)).map Rule.content := by
  rw [synced_of_appends wf hq happend, hempty, List.nil_append, List.filter_eq_self.2]
  intro r hr
  exact Kernel.lacks_of_empty hempty (mem_rulesOf_callsIn.1 hr).2

end Empty

/-! ### Executions of one input -/

section Congr

variable {bo : ByteOrder} {i : Input} {es es' : List Event} {u u' : Unit}

/-- The rules that a request asks for in a chain. -/
def Request.listed? (c : Str) : Request → Option Rule
  | rule r _ => if r.inChain filterTableName c then some r.erase else none
  | _ => none

/-- The listed rules are told by the requests. -/
theorem listedIn_eq_filterMap (c : Str) (es : List Event) :
    listedIn c es = (es.map Event.request).filterMap (Request.listed? c) := by
  rw [List.filterMap_map]
  induction es with
  | nil => rfl
  | cons e es ih =>
    rw [← List.singleton_append, listedIn_append, ih, List.singleton_append, List.filterMap_cons]
    cases e with
    | chain x => rfl
    | set s els fresh => rfl
    | rule r action force isNew =>
      have hin : r.listed.inChain filterTableName c = r.inChain filterTableName c := rfl
      have hone : listedIn c [.rule r action force isNew] =
          if r.inChain filterTableName c then [r.content] else [] := by
        rw [listedIn, rulesOf_callsIn, show rulesOf [.rule r action force isNew] = [r] from rfl,
          List.filter_singleton]
        cases r.inChain filterTableName c <;> rfl
      rw [hone]
      simp only [Function.comp_apply, Event.request, Request.listed?, hin]
      split <;> rfl

/-- The rules that are asked for do not depend on the kernel. -/
theorem listedIn_congr (h : Exec (renderInput bo i) es u) (h' : Exec (renderInput bo i) es' u')
    (c : Str) : listedIn c es = listedIn c es' := by
  rw [listedIn_eq_filterMap, listedIn_eq_filterMap, ← requests_of_exec h, ← requests_of_exec h']

/-- The ruleset has the sets that an input asks for. -/
def Kernel.HoldsRequested (k : Kernel) (bo : ByteOrder) (i : Input) : Prop :=
  ∀ x ∈ i.requestedSets bo, k.HoldsSet x.1 x.2

/-- The sets that an execution asks for are those of the input. -/
theorem Kernel.HoldsRequested.holdsSets {k : Kernel} (hk : k.HoldsRequested bo i)
    (h : Exec (renderInput bo i) es u) : k.HoldsSets es := by
  intro s els fresh he _
  exact Kernel.HoldsSet.congr (s := { s with id := 0 }) rfl rfl rfl
    (hk _ ((mem_requestedSets h).2 ⟨s, fresh, he, rfl⟩))

end Congr

/-! ### Runs -/

section Run

variable {h : Host} {i : Input} {k : Kernel} {s : State} {es : List Event} {u : Unit}

/-- The sets behind the main flush. -/
theorem holdsRequested_of_commit (wf : k.WF) (hs : commitRules h i (State.new k) = .ok () s)
    (hco : i.SetsCoincide h.byteOrder)
    (hready : ∀ x ∈ i.requestedSets h.byteOrder, k.ReadyFor x.1 x.2) :
    s.kernel.HoldsRequested h.byteOrder i := by
  unfold commitRules at hs
  rw [bind_eq_ok] at hs
  obtain ⟨_, sq, hqueue, hflush⟩ := hs
  rw [wrapErr_eq_ok] at hflush
  obtain ⟨s₀, es, hst⟩ := queueRules_staged wf hqueue
  obtain ⟨-, rfl⟩ := flush_eq_ok hflush
  obtain ⟨tables, ops, htables, hq, hm⟩ := hst.messages
  obtain ⟨hinv, -⟩ := cleanupLegacyTables_keeps.of_ok (legacyInv_new wf) hst.legacy
  rintro ⟨x, els⟩ hx
  obtain ⟨x₀, fresh, he, rfl⟩ := (mem_requestedSets hst.exec).1 hx
  -- neither the legacy cleanup nor the new tables touch the set
  have hlegacy : legacyNames.contains x₀.table = false :=
    not_legacy_of_isManaged
      ((sound_renderInput hst.exec).set x₀ (mem_setsOf.2 ⟨els, fresh, he⟩))
  have hready₀ : s₀.kernel.ReadyFor x₀ els :=
    Kernel.ReadyFor.congr (s := { x₀ with id := 0 }) (hinv.agree.findSet hlegacy _)
      (hinv.agree.getElements hlegacy _) rfl (hready _ hx)
  have hcreate : ∀ op ∈ tables, op.removes = false := by
    intro op hop
    obtain ⟨t, -, rfl⟩ := htables op hop
    rfl
  have hnone : tables.findSome? (Op.addedSet x₀.table x₀.name) = none := by
    rw [List.findSome?_eq_none_iff]
    intro op hop
    obtain ⟨t, -, rfl⟩ := htables op hop
    rfl
  have hsame : (s₀.kernel.commit tables).getElements x₀.table x₀.name =
      s₀.kernel.getElements x₀.table x₀.name := by
    refine Kernel.getElements_commit (fun op hop => ?_) s₀.kernel
    obtain ⟨t, -, rfl⟩ := htables op hop
    exact ⟨rfl, Op.noConfusion⟩
  have hfind : (s₀.kernel.commit tables).findSet x₀.table x₀.name =
      s₀.kernel.findSet x₀.table x₀.name := by
    rw [Kernel.findSet_commit hcreate, hnone, Option.or_none]
  have hholds := hq.holdsSet he hfind hsame (hco.coincides hst.exec he) hready₀
  rw [← Kernel.commit_append, ← hm, ← hst.kernel] at hholds
  exact Kernel.HoldsSet.congr (s := x₀) rfl rfl rfl hholds

/-- The sets behind a run. -/
theorem holdsRequested_of_run (wf : k.WF)
    (hs : applyPolicyRulesForPodAndFamily h i (State.new k) = .ok () s)
    (hco : i.SetsCoincide h.byteOrder)
    (hready : ∀ x ∈ i.requestedSets h.byteOrder, k.ReadyFor x.1 x.2) :
    s.kernel.HoldsRequested h.byteOrder i := by
  obtain ⟨s₀, s₁, s₂, s₃, es, hst, hf⟩ := exists_stages wf hs
  have hmain := holdsRequested_of_commit wf hst.main hco hready
  rintro ⟨x, els⟩ hx
  obtain ⟨x₀, fresh, he, rfl⟩ := (mem_requestedSets hf.exec).1 hx
  obtain ⟨hfind, hels⟩ := hst.keeps_set wf hf (mem_setsOf.2 ⟨els, fresh, he⟩)
  exact Kernel.HoldsSet.congr (s := { x₀ with id := 0 }) hfind hels rfl (hmain _ hx)

/-- A ruleset without tables of the daemon is ready for every set. -/
theorem Kernel.ManagedEmpty.readyFor (hk : k.ManagedEmpty)
    (hexec : Exec (renderInput h.byteOrder i) es u) :
    ∀ x ∈ i.requestedSets h.byteOrder, k.ReadyFor x.1 x.2 := by
  rintro ⟨x, els⟩ hx
  obtain ⟨x₀, fresh, he, rfl⟩ := (mem_requestedSets hexec).1 hx
  have hmanaged := (sound_renderInput hexec).set x₀ (mem_setsOf.2 ⟨els, fresh, he⟩)
  refine .inl ⟨?_, ?_⟩
  · rw [Kernel.findSet, List.find?_eq_none]
    intro y hy hname
    rw [Bool.and_eq_true, beq_iff_eq] at hname
    have hother := hk.sets y hy
    rw [hname.1, hmanaged] at hother
    cases hother
  · rw [Kernel.getElements, List.map_eq_nil_iff, List.filter_eq_nil_iff]
    intro y hy hin
    rw [StoredElement.inSet, Bool.and_eq_true, beq_iff_eq] at hin
    have hother := hk.elements y hy
    rw [hin.1, hmanaged] at hother
    cases hother

/-- The calls for a chain of a policy append to it. -/
theorem appends_callsIn {bo : ByteOrder} {ans : Rule → Bool} (hexec : Exec (renderInput bo i) es u)
    (hans : Answers ans es) (hnd : i.chainNames.Nodup) {d : Direction} {p : InternalPolicy}
    (hp : p ∈ i.policiesIn d) {c : Str} (hc : c ∈ policyChainNames d p.policy) :
    ∀ e ∈ callsIn filterTableName c es, e.Appends fun _ => True := by
  obtain ⟨e, esR, hcalls, -, heq⟩ := exists_callsIn_policy hexec hans hnd hp hc
  intro x hx
  rw [heq] at hx
  exact appends_applyPolicyRules hcalls.exec x (List.mem_of_mem_filter hx)

/-- **The main flush of a first run enforces the policies.** -/
theorem enforced_of_commit (wf : k.WF) (hk : k.ManagedEmpty)
    (hs : commitRules h i (State.new k) = .ok () s) (hnd : i.chainNames.Nodup)
    (hco : i.SetsCoincide h.byteOrder) : ∃ es, Enforced h.byteOrder i s.kernel es := by
  obtain ⟨es, hexec, ⟨ops, hq⟩, -, -, -, -, hchain⟩ := commitRules_ok wf hs
  have hempty := hk.chainRules (t := filterTableName) (by decide)
  -- the chains were empty, so each has what was asked for in it
  have hmem : ∀ c r, r ∈ s.kernel.chainRules filterTableName c ↔ r ∈ listedIn c es := by
    intro c r
    rw [hchain _ (by decide)]
    constructor
    · intro hr
      rcases mem_synced wf hr with hr | ⟨x, hx, rfl⟩
      · rw [hempty c] at hr
        cases hr
      · exact List.mem_map_of_mem hx
    · intro hr
      obtain ⟨x, hx, hin, rfl⟩ := mem_listedIn.1 hr
      have hsynced := mem_synced_of_requested wf hq hx
      rw [hin.1, hin.2] at hsynced
      exact hsynced
  refine ⟨es, hexec, ⟨_, hq.answers⟩, rendered_of_commit wf hk hs hnd,
    (holdsRequested_of_commit wf hs hco (hk.readyFor hexec)).holdsSets hexec, fun d => hmem _,
    fun d p hp index hi => hmem _, fun d p hp index hi => ?_⟩
  have hrole : ChainRole.peers index ∈ rolesBelow (p.policy.rulesIn d).length := mem_rolesBelow.2 hi
  rw [hchain _ (by decide), synced_of_empty wf hq (hempty _)
    (appends_callsIn hexec hq.answers hnd hp (List.mem_map_of_mem hrole))]
  rfl

end Run

/-! ### Rules that look up sets -/

/-- Listing a rule keeps its lookups. -/
theorem Rule.lookups_content {r : Rule} : r.content.lookups = [] ↔ r.lookups = [] := by
  rw [List.eq_nil_iff_forall_not_mem, List.eq_nil_iff_forall_not_mem]
  constructor
  · intro hnone l hl
    exact hnone _ (Rule.lookups_listed hl)
  · intro hnone l hl
    obtain ⟨reg, hl⟩ := Rule.mem_lookups.1 hl
    obtain ⟨e, he, heq⟩ := List.mem_map.1 hl
    cases e with
    | lookup reg' name id => exact hnone (name, id) (Rule.mem_lookups.2 ⟨reg', he⟩)
    | _ => cases heq

namespace Render

variable {bo : ByteOrder} {deps : PolicyDeps} {chain : Chain} {chainName policyName : Str}

/-- The call is for a rule that looks up a set. -/
abbrev LookupCall : Event → Prop := Event.Calls fun r => r.lookups ≠ []

theorem lookupCall_peerRule (f : AddressFamily) (comment : Str) (set : NftSet) (isNew : Bool) :
    LookupCall (.rule (peerRule bo f chainName chain comment set) .addRule false isNew) := by
  show (peerRule bo f chainName chain comment set).lookups ≠ []
  rw [(built_peerRule rfl f set).lookups]
  exact List.cons_ne_nil _ _

theorem emits_lookup_applyPrefixes {cidr : Str} {index : Nat} {els exceptEls : List SetElement}
    {isV6 : Bool} :
    Emits LookupCall (fun _ => True)
      (applyPrefixes bo chainName chain policyName cidr index els exceptEls isV6) := by
  refine emits_when fun _ => emits_bind (emits_when fun _ => ?_) fun _ _ => ?_
  · refine emits_bind (emits_wrapErr (emits_updateSet fun _ _ => trivial)) fun set _ => ?_
    refine emits_updateRule_unit fun _ => ?_
    show (exceptRule (addressFamily isV6) chainName chain policyName cidr set).lookups ≠ []
    rw [(built_exceptRule rfl _ _ set).lookups]
    exact List.cons_ne_nil _ _
  · refine emits_bind (emits_wrapErr (emits_updateSet fun _ _ => trivial)) fun set _ => ?_
    exact emits_updateRule_unit fun isNew => lookupCall_peerRule _ _ set isNew

theorem emits_lookup_addIPRule {addrs : List Str} {peer : MultiNetworkPolicyPeer} {index : Nat} :
    Emits LookupCall (fun _ => True)
      (addIPRule bo chainName addrs chain policyName peer index) := by
  cases addrs with
  | nil => exact emits_pure trivial
  | cons addr addrs =>
    refine emits_bind (emits_updateSet fun _ _ => trivial) fun set _ => ?_
    exact emits_updateRule_unit fun isNew => lookupCall_peerRule _ _ set isNew

/-- Every rule of a peer looks up a set. -/
theorem emits_lookup_applyPolicyPeer {podInfo : PodInfo} {networks : List Str} {index : Nat}
    {peer : MultiNetworkPolicyPeer} :
    Emits LookupCall (fun _ => True)
      (applyPolicyPeer bo deps chainName chain policyName podInfo networks index peer) := by
  unfold applyPolicyPeer
  split
  · refine emits_wrapErr (emits_bind (emits_wrapErr (emits_ofExcept _)) fun _ _ => ?_)
    refine emits_bind (emits_wrapErr (emits_ofExcept _)) fun _ _ => ?_
    exact emits_bind (emits_wrapErr emits_lookup_applyPrefixes) fun _ _ =>
      emits_wrapErr emits_lookup_applyPrefixes
  · split
    · refine emits_wrapErr (emits_bind (emits_wrapErr (emits_ofExcept _)) fun _ _ => ?_)
      refine emits_bind (emits_wrapErr (emits_ofExcept _)) fun _ _ => ?_
      refine emits_bind (emits_wrapErr (emits_ofExcept _)) fun _ _ => ?_
      refine emits_wrapErr (emits_bind (emits_ofExcept _) fun _ _ => ?_)
      exact emits_bind (emits_wrapErr emits_lookup_addIPRule) fun _ _ =>
        emits_wrapErr emits_lookup_addIPRule
    · exact emits_fail

/-- The rules of a peers chain look up sets, unless there are no peers. -/
theorem lookups_of_peers {podInfo : PodInfo} {networks : List Str}
    {peers : List MultiNetworkPolicyPeer} {index : Nat} {es : List Event} {u : Unit}
    (hne : chain.name ≠ (peersChainOf chainName index).name)
    (h : Exec (applyPolicyPeersRules bo deps chainName chain policyName peers podInfo
      networks index)
      es u) {x : Rule} (hx : x ∈ listedIn (peersChainOf chainName index).name es) :
    x.lookups = [] ↔ peers = [] := by
  obtain ⟨r, hr, hin, rfl⟩ := mem_listedIn.1 hx
  obtain ⟨action, force, isNew, he⟩ := mem_rulesOf.1 hr
  rw [Rule.lookups_content]
  unfold applyPolicyPeersRules at h
  simp only [exec_bind, exec_wrapErr, exec_addChain, exec_updateRule, exec_when, exec_pure,
    List.length_eq_zero_iff] at h
  obtain ⟨_, _, _, ⟨rfl, rfl⟩, ⟨jumpNew, _, _, rfl, ⟨_, es₁, es₂, h₁, h₂, rfl⟩, rfl⟩, rfl⟩ := h
  simp only [List.mem_append, List.mem_singleton] at he
  -- the chain, the jump to it, the rules of the peers, the rule for all peers
  rcases he with he | he | he | he
  · cases he
  · -- the jump is in the chain of the policy
    rw [Event.rule.injEq] at he
    refine absurd ?_ hne
    rw [← hin.2, he.1]
    rfl
  · have hlookup := calls_of_emits h₁
      (emits_forEach _ _ fun j x _ _ => emits_lookup_applyPolicyPeer) _ he
    refine iff_of_false hlookup ?_
    rintro rfl
    obtain ⟨-, rfl⟩ := exec_pure.1 h₁
    cases he
  · rcases h₂ with ⟨hnil, all, _, _, rfl, ⟨-, rfl⟩, rfl⟩ | ⟨-, rfl⟩
    · rw [List.append_nil, List.mem_singleton, Event.rule.injEq] at he
      rw [he.1]
      exact iff_of_true (built_acceptAllRule rfl _ _).lookups hnil
    · cases he

end Render

/-! ### A second run -/

section Second

variable {h : Host} {i : Input} {k : Kernel} {s : State} {es : List Event} {c : Str}

/-- What looks up no set is remembered as it is listed. -/
theorem hashRule_content {r : Rule} (hr : r.listed = r) : hashRule h r.content = hashRule h r := by
  show hashRule h r.listed = hashRule h r
  rw [hr]

/-- **A first run leaves no rule that looks up a set**: the rules it remembers carry the numbers of
new sets, which the kernel does not list. -/
theorem lookups_of_first_run (wf : k.WF) (hk : k.ManagedEmpty)
    (hs : applyPolicyRulesForPodAndFamily h i (State.new k) = .ok () s)
    (hnc : NoCollision h (s.requested ++ s.requested.map Rule.listed)) {x : Rule}
    (hx : x ∈ s.kernel.chainRules filterTableName c) : x.lookups = [] := by
  obtain ⟨es, hexec, ⟨ops, hq⟩, -, hreq, hchain⟩ := apply_ok wf hs
  have hsound := sound_renderInput hexec
  rw [hchain _ (by decide), List.mem_filter, List.contains_iff_mem, List.mem_map] at hx
  obtain ⟨hx, y, hy, hkey⟩ := hx
  rcases mem_synced wf hx with hold | ⟨r, hr, rfl⟩
  · rw [hk.chainRules (by decide)] at hold
    cases hold
  obtain ⟨hr, -⟩ := mem_rulesOf_callsIn.1 hr
  rw [hreq] at hnc
  have hident := hnc y (List.mem_append_left _ hy) r.listed
    (List.mem_append_right _ (List.mem_map_of_mem hr)) hkey
  rw [Rule.lookups_content, List.eq_nil_iff_forall_not_mem]
  intro l hl
  -- a request with the same key has the same lookups
  have hlisted := Rule.mem_lookups_of_identity hident.symm (Rule.lookups_listed hl)
  obtain ⟨x', hx', ht', heq⟩ := hsound.resolved y hy _ hlisted
  obtain ⟨els, fresh, he⟩ := mem_setsOf.1 hx'
  simp only [Prod.mk.injEq] at heq
  -- a lookup without identifier is of a set that exists, and there is none
  have hset := (id_eq_zero_iff hsound hq he).1 heq.2.symm
  obtain ⟨z, hz, hzt, -⟩ := Kernel.hasSet_iff.1 hset
  have hother := hk.sets z hz
  rw [hzt, hsound.set x' hx'] at hother
  cases hother

/-- A chain that is only appended to, after a first run. -/
theorem chainRules_of_first_run (wf : k.WF) (hk : k.ManagedEmpty)
    (hs : applyPolicyRulesForPodAndFamily h i (State.new k) = .ok () s)
    (hnc : NoCollision h (s.requested ++ s.requested.map Rule.listed))
    (happend : ∀ es ans, Exec (renderInput h.byteOrder i) es () → Answers ans es →
      ∀ e ∈ callsIn filterTableName c es, e.Appends fun _ => True)
    (hexec : Exec (renderInput h.byteOrder i) es ()) :
    s.kernel.chainRules filterTableName c = (listedIn c es).filter fun x => x.lookups.isEmpty := by
  have hgone := fun x => lookups_of_first_run (c := c) (x := x) wf hk hs hnc
  obtain ⟨es', hexec', ⟨ops, hq⟩, -, hreq, hchain⟩ := apply_ok wf hs
  rw [hchain _ (by decide)] at hgone ⊢
  rw [synced_of_empty wf hq (hk.chainRules (by decide) _)
    (happend es' _ hexec' hq.answers)] at hgone ⊢
  rw [listedIn_congr hexec hexec']
  refine List.filter_congr fun x hx => ?_
  rw [Bool.eq_iff_iff, List.isEmpty_iff, List.contains_iff_mem]
  refine ⟨fun htracked => hgone x (List.mem_filter.2 ⟨hx, List.contains_iff_mem.2 htracked⟩),
    fun hnone => ?_⟩
  obtain ⟨r, hr, rfl⟩ := List.mem_map.1 hx
  obtain ⟨hr, -⟩ := mem_rulesOf_callsIn.1 hr
  rw [Rule.lookups_content] at hnone
  rw [hashRule_content (Rule.listed_eq_self (by simp [hnone]))]
  exact List.mem_map_of_mem hr

/-- The same chain after a second run, which finds the sets: the rules that look them up follow the
others. -/
theorem chainRules_of_second_run (wf : k.WF)
    (hs : applyPolicyRulesForPodAndFamily h i (State.new k) = .ok () s)
    (hold : ∀ x ∈ i.requestedSets h.byteOrder, k.hasSet x.1.table x.1.name = true)
    (happend : ∀ es ans, Exec (renderInput h.byteOrder i) es () → Answers ans es →
      ∀ e ∈ callsIn filterTableName c es, e.Appends fun _ => True)
    (hexec : Exec (renderInput h.byteOrder i) es ())
    (hbefore : k.chainRules filterTableName c =
      (listedIn c es).filter fun x => x.lookups.isEmpty) :
    s.kernel.chainRules filterTableName c =
      ((listedIn c es).filter fun x => x.lookups.isEmpty) ++
        (listedIn c es).filter fun x => !x.lookups.isEmpty := by
  obtain ⟨es', hexec', ⟨ops, hq⟩, -, -, hchain⟩ := apply_ok wf hs
  have hsound := sound_renderInput hexec'
  rw [← forall_setsOf_iff hexec' (P := fun t n => k.hasSet t n = true)] at hold
  have hlisted := fun r hr => listed_eq_of_old (r := r) hsound hq hold hr
  rw [listedIn_congr hexec hexec'] at hbefore ⊢
  -- a rule is lacking exactly when it looks up a set
  have hlacks : ∀ r ∈ rulesOf (callsIn filterTableName c es'),
      k.lacks r = !r.content.lookups.isEmpty := by
    intro r hr
    have hmem := List.mem_map_of_mem (f := Rule.content) hr
    obtain ⟨hr, hin⟩ := mem_rulesOf_callsIn.1 hr
    obtain ⟨ht, hc⟩ := Rule.inChain_iff.1 hin
    have herase : r.erase = r.content := by
      show r.erase = r.listed.erase
      rw [hlisted r hr]
    have hfound : (k.findRule r).isSome = true ↔ r.content.lookups.isEmpty = true := by
      rw [Kernel.findRule_isSome_iff (hsound.rule r hr).1, herase, ht, hc, hbefore, List.mem_filter]
      exact and_iff_right hmem
    rw [Kernel.lacks, ← Option.not_isSome, Bool.eq_iff_iff.2 hfound]
  have hsynced : synced k es' filterTableName c =
      ((listedIn c es').filter fun x => x.lookups.isEmpty) ++
        (listedIn c es').filter fun x => !x.lookups.isEmpty := by
    rw [synced_of_appends wf hq (happend es' _ hexec' hq.answers), hbefore, listedIn,
      List.filter_map (p := fun x : Rule => !x.lookups.isEmpty), List.filter_congr hlacks]
    rfl
  rw [hchain _ (by decide), hsynced, List.filter_eq_self.2]
  intro x hx
  have hmem : x ∈ listedIn c es' := by
    rcases List.mem_append.1 hx with hx | hx <;> exact List.mem_of_mem_filter hx
  obtain ⟨r, hr, -, rfl⟩ := mem_listedIn.1 hmem
  rw [List.contains_iff_mem, hashRule_content (hlisted r hr)]
  exact List.mem_map_of_mem hr

end Second

/-! ### Two runs -/

theorem NoCollision.mono {h : Host} {rules rules' : List Rule} (hnc : NoCollision h rules)
    (hsub : rules' ⊆ rules) : NoCollision h rules' :=
  fun x hx y hy => hnc x (hsub hx) y (hsub hy)

/-- Distinct keys tell rules apart. -/
theorem KeysDistinct.tell {h : Host} {k : Kernel} {s : State} (hkeys : KeysDistinct h k s) :
    KeysTell h k s := by
  refine NoCollision.mono hkeys fun x hx => ?_
  rcases List.mem_append.1 hx with hx | hx <;> simp [hx]

/-- Two successful runs for one input, the first one with empty tables of the daemon. -/
structure TwoRuns (h₁ h₂ : Host) (i : Input) (k : Kernel) (s₁ s₂ : State) : Prop where
  wf : k.WF
  empty : k.ManagedEmpty
  first : applyPolicyRulesForPodAndFamily h₁ i (State.new k) = .ok () s₁
  second : applyPolicyRulesForPodAndFamily h₂ i (State.new s₁.kernel) = .ok () s₂
  byteOrder : h₂.byteOrder = h₁.byteOrder
  keys₁ : KeysDistinct h₁ k s₁
  keys₂ : KeysDistinct h₂ s₁.kernel s₂

namespace TwoRuns

variable {h₁ h₂ : Host} {i : Input} {k : Kernel} {s₁ s₂ : State} {es : List Event} {c : Str}
  {d : Direction} (hr : TwoRuns h₁ h₂ i k s₁ s₂)
include hr

theorem wf₁ : s₁.kernel.WF := by
  obtain ⟨_, -, -, hwf, -⟩ := apply_ok hr.wf hr.first
  exact hwf

theorem noCollision : NoCollision h₁ (s₁.requested ++ s₁.requested.map Rule.listed) :=
  NoCollision.mono hr.keys₁ (List.subset_append_left ..)

/-- The entry chain behind two runs. -/
theorem entry : s₂.kernel.chainRules filterTableName d.entry =
    commonRule d :: (midRules h₁.byteOrder d i.sortedInfo (i.policiesIn d) ++
      endRules d (i.policiesIn d)) := by
  obtain ⟨es₁, hran₁⟩ := exists_ran hr.wf hr.first
  obtain ⟨es₂, hran₂⟩ := exists_ran hr.wf₁ hr.second
  have hend : (if (!(i.policiesIn d).isEmpty) = true then [dropRule d] else []) =
      endRules d (i.policiesIn d) := rfl
  have hempty : k.chainRules filterTableName d.entry = [] ++ [] ++ [] :=
    hr.empty.chainRules (by decide) _
  -- from nothing the first run renders the chain in order
  have hfirst : s₁.kernel.chainRules filterTableName d.entry =
      [commonRule d] ++ midRules h₁.byteOrder d i.sortedInfo (i.policiesIn d) ++
        endRules d (i.policiesIn d) := by
    rw [hran₁.entry hr.keys₁.tell hempty (.inl rfl) (.inl rfl) (by simp) (by simp),
      Reconcile.reconcile_nil_left, hend]
    rfl
  -- the second run changes nothing in it
  have hself : Reconcile.reconcile (midRules h₁.byteOrder d i.sortedInfo (i.policiesIn d))
      (midRules h₁.byteOrder d i.sortedInfo (i.policiesIn d)) =
      midRules h₁.byteOrder d i.sortedInfo (i.policiesIn d) := by
    have hnil := Reconcile.reconcile_append_eq_iff
      (l := midRules h₁.byteOrder d i.sortedInfo (i.policiesIn d)) (r := [])
    rw [List.append_nil] at hnil
    exact hnil.2 (by simp)
  rw [hran₂.entry hr.keys₂.tell hfirst (.inr rfl) (endRules_cases d _)
    (fun x hx => ⟨isMiddle_of_mem_midRules hx, (settled_of_mem_midRules hx).normal⟩) ?_,
    hr.byteOrder, hself, hend]
  rw [hr.byteOrder]
  exact fun _ _ x hx => hx

/-- The sets behind each of the runs. -/
theorem holdsRequested (hco : i.SetsCoincide h₁.byteOrder) :
    s₁.kernel.HoldsRequested h₁.byteOrder i ∧ s₂.kernel.HoldsRequested h₁.byteOrder i := by
  obtain ⟨es, hran⟩ := exists_ran hr.wf hr.first
  have hsets := holdsRequested_of_run hr.wf hr.first hco (hr.empty.readyFor hran.exec)
  refine ⟨hsets, ?_⟩
  rw [← hr.byteOrder] at hco hsets ⊢
  exact holdsRequested_of_run hr.wf₁ hr.second hco fun x hx => .inr (hsets x hx)

/-- The second run needs no new set. -/
theorem hasSets (hco : i.SetsCoincide h₁.byteOrder) :
    ∀ x ∈ i.requestedSets h₂.byteOrder, s₁.kernel.hasSet x.1.table x.1.name = true := by
  rw [hr.byteOrder]
  intro x hx
  obtain ⟨y, hy, -⟩ := ((hr.holdsRequested hco).1 x hx).found
  show (s₁.kernel.findSet x.1.table x.1.name).isSome = true
  rw [hy]
  rfl

/-- Every chain has the rules that are asked for and no others. -/
theorem mem_chainRules (hco : i.SetsCoincide h₁.byteOrder)
    (hexec : Exec (renderInput h₁.byteOrder i) es ()) (x : Rule) :
    x ∈ s₂.kernel.chainRules filterTableName c ↔ x ∈ listedIn c es := by
  obtain ⟨es₁, hran₁⟩ := exists_ran hr.wf hr.first
  obtain ⟨es₂, hran₂⟩ := exists_ran hr.wf₁ hr.second
  have hexec₂ := hran₂.exec
  rw [hr.byteOrder] at hexec₂
  constructor
  · intro hx
    rw [hran₂.chains _ (by decide)] at hx
    rcases mem_synced hr.wf₁ (List.mem_of_mem_filter hx) with hx | ⟨r, hmem, rfl⟩
    · -- the first run has asked for it
      rw [hran₁.chains _ (by decide)] at hx
      rcases mem_synced hr.wf (List.mem_of_mem_filter hx) with hx | ⟨r, hmem, rfl⟩
      · rw [hr.empty.chainRules (by decide)] at hx
        cases hx
      · rw [listedIn_congr hexec hran₁.exec]
        exact List.mem_map_of_mem hmem
    · rw [listedIn_congr hexec hexec₂]
      exact List.mem_map_of_mem hmem
  · intro hx
    rw [listedIn_congr hexec hexec₂] at hx
    obtain ⟨r, hmem, hin, rfl⟩ := mem_listedIn.1 hx
    rw [← hran₂.requested] at hmem
    have hkept := (mem_chainRules_of_old hr.wf₁ hr.second (hr.hasSets hco) r hmem).2
    rw [hin.1, hin.2] at hkept
    exact hkept

/-- A chain of a policy in which all rules look up sets, or none. -/
theorem chainRules_policy (hco : i.SetsCoincide h₁.byteOrder) (hnd : i.chainNames.Nodup)
    (hexec : Exec (renderInput h₁.byteOrder i) es ()) {p : InternalPolicy}
    (hp : p ∈ i.policiesIn d) (hc : c ∈ policyChainNames d p.policy) {Q : Prop}
    (hall : ∀ x ∈ listedIn c es, x.lookups = [] ↔ Q) :
    s₂.kernel.chainRules filterTableName c = listedIn c es := by
  have happend : ∀ bo es ans, Exec (renderInput bo i) es () → Answers ans es →
      ∀ e ∈ callsIn filterTableName c es, e.Appends fun _ => True :=
    fun bo es ans hexec hans => appends_callsIn hexec hans hnd hp hc
  have hfirst := chainRules_of_first_run hr.wf hr.empty hr.first hr.noCollision (happend _) hexec
  have hexec₂ : Exec (renderInput h₂.byteOrder i) es () := by
    rw [hr.byteOrder]
    exact hexec
  rw [chainRules_of_second_run hr.wf₁ hr.second (hr.hasSets hco) (happend _) hexec₂ hfirst]
  by_cases hQ : Q
  · have hnone : ∀ x ∈ listedIn c es, x.lookups.isEmpty = true :=
      fun x hx => List.isEmpty_iff.2 ((hall x hx).2 hQ)
    rw [List.filter_eq_self.2 hnone, List.filter_eq_nil_iff.2 fun x hx => by simp [hnone x hx],
      List.append_nil]
  · have hsome : ∀ x ∈ listedIn c es, x.lookups.isEmpty = false := by
      intro x hx
      rw [Bool.eq_false_iff]
      exact fun hempty => hQ ((hall x hx).1 (List.isEmpty_iff.1 hempty))
    rw [List.filter_eq_nil_iff.2 fun x hx => by simp [hsome x hx], List.filter_eq_self.2
      fun x hx => by simp [hsome x hx], List.nil_append]

/-- **Two runs enforce the policies.** -/
theorem enforced (hco : i.SetsCoincide h₁.byteOrder) (hnd : i.chainNames.Nodup) :
    ∃ es, Enforced h₁.byteOrder i s₂.kernel es := by
  obtain ⟨s₀, f, _, _, _, hst, -⟩ := exists_stages hr.wf hr.first
  obtain ⟨es, hflush⟩ := enforced_of_commit hr.wf hr.empty hst.main hnd hco
  have hmem := fun c => hr.mem_chainRules (c := c) hco hflush.exec
  obtain ⟨ans, hans⟩ := hflush.answers
  -- compared with the main flush of the first run
  have hrendered : ∀ d, Rendered h₁.byteOrder i d s₂.kernel := by
    intro d
    have hd := hflush.rendered d
    refine ⟨⟨hr.entry, fun r hr' => hd.common r ?_⟩, fun p hp => ?_,
      fun p hp index hi r hr' => hd.ports p hp index hi r ?_,
      fun p hp index hi r hr' => hd.peers p hp index hi r ?_⟩
    · exact (hflush.common d r).2 ((hmem _ r).1 hr')
    · have hrules : listedIn (chainNameOf d p.policy .policy) es =
          policyRules h₁.byteOrder d p.policy := by
        rw [listedIn, callsIn_policyChain hflush.exec hans hnd hp, rulesOf_appendCalls,
          map_content_of_settled fun r hr => settled_of_mem_policyRules hr]
      have hrole : ChainRole.policy ∈ rolesBelow (p.policy.rulesIn d).length :=
        mem_rolesBelow.2 trivial
      rw [hr.chainRules_policy (Q := True) hco hnd hflush.exec hp
        (List.mem_map_of_mem hrole), hrules]
      rw [hrules]
      exact fun x hx => iff_of_true (settled_of_mem_policyRules hx).normal.lookups trivial
    · exact (hflush.ports d p hp index hi r).2 ((hmem _ r).1 hr')
    · rw [hflush.peers d p hp index hi]
      exact (hmem _ r).1 hr'
  refine ⟨es, hflush.exec, hflush.answers, hrendered,
    (hr.holdsRequested hco).2.holdsSets hflush.exec,
    fun d => hmem _, fun d p hp index hi => hmem _, fun d p hp index hi => ?_⟩
  have hrole : ChainRole.peers index ∈ rolesBelow (p.policy.rulesIn d).length := mem_rolesBelow.2 hi
  obtain ⟨es', hpeers, -, hlisted⟩ := exists_peersCalls hflush.exec hans hnd hp hi
  refine hr.chainRules_policy (Q := (p.policy.rulesIn d)[index].peers = []) hco hnd hflush.exec hp
    (List.mem_map_of_mem hrole) fun x hx => ?_
  rw [hlisted, ← peersChainOf_name] at hx
  have hpolicy : chainNameOf d p.policy .policy ≠ chainNameOf d p.policy (.peers index) :=
    Input.role_ne hnd hp (mem_rolesBelow.2 trivial) hrole (by simp)
  rw [← peersChainOf_name] at hpolicy
  exact lookups_of_peers hpolicy hpeers hx

end TwoRuns

end MultiNetPolicy
