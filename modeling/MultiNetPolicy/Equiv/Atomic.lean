import MultiNetPolicy.Equiv.Spared
import MultiNetPolicy.Equiv.Survival

/-!
# A failed render changes nothing

Between the legacy cleanup and the main flush nothing is committed: the calls of a rendering program
only ask and queue (`idle_run`).  So a run that fails there leaves the daemon's tables as they were
(`failed_render_changes_nothing`).
-/

namespace MultiNetPolicy

open ByteString StateExcept

/-! ### Calls that only ask and queue -/

/-- The program commits nothing, whether it ends or fails. -/
def Idle {α : Type} (x : M α) : Prop :=
  ∀ I : Kernel → Prop, Keeps (fun s => I s.kernel) x fun _ => True

namespace Idle

variable {h : Host} {α β : Type}

theorem pure (a : α) : Idle (pure a : M α) := fun _ => Keeps.pure trivial

theorem throw (e : Error) : Idle (throw e : M α) := fun _ => Keeps.throw

/-- A sequence of commands that leave the kernel alone. -/
theorem bind {x : M α} {f : α → M β} (hx : Idle x) (hf : ∀ a, Idle (f a)) : Idle (x >>= f) :=
  fun I => (hx I).bind fun a _ => hf a I

theorem ite {c : Prop} [Decidable c] {x y : M α} (hx : Idle x) (hy : Idle y) :
    Idle (if c then x else y) := fun I => Keeps.ite (fun _ => hx I) fun _ => hy I

theorem modify {f : State → State} (hf : ∀ s, (f s).kernel = s.kernel) :
    Idle (modify f : M PUnit) := fun I => Keeps.modify fun s hs => by rwa [hf s]

theorem mapErr {x : M α} (hx : Idle x) (f : Error → Error) : Idle (mapErr f x) :=
  fun I => triple_mapErr (hx I) f

theorem wrapErr {x : M α} (hx : Idle x) (c : Str) : Idle (wrapErr c x) := hx.mapErr _

theorem query (f : Kernel → α) : Idle (Conn.query h f) :=
  fun _ => triple_query fun _ hs => ⟨fun _ => ⟨hs, trivial⟩, fun _ => hs⟩

theorem queue (ops : List Op) : Idle (Conn.queue ops) := modify fun _ => rfl

theorem allocateTransactionID : Idle Conn.allocateTransactionID := fun _ _ hs => ⟨hs, trivial⟩

theorem action (action : RuleAction) (r : Rule) : Idle (action.run r) := by
  cases action with
  | addRule => exact bind allocateTransactionID fun _ => queue _
  | insertRule => exact bind allocateTransactionID fun _ => queue _

/-- Remembering a rule, and the answer. -/
theorem track (key : Str) (a : α) : Idle (do
    trackRule key
    return a) := bind (modify fun _ => rfl) fun _ => pure a

/-- A rule is queued only. -/
theorem updateRule (r : Rule) (a : RuleAction) (force : Bool) :
    Idle (updateRule h r a force) := by
  have hfind : Idle (findRule h r) := bind (wrapErr (query _) _) fun _ => pure _
  unfold MultiNetPolicy.updateRule
  refine bind (modify fun _ => rfl) fun _ => bind (wrapErr hfind _) fun found => ?_
  cases found with
  | some existing =>
    exact ite (bind (queue _) fun _ => bind (action a r) fun _ => track _ _) (track _ _)
  | none => exact bind (action a r) fun _ => track _ _

theorem updateElements (existing : NftSet) (toAdd toDel : List SetElement) :
    Idle (updateElements existing toAdd toDel) := by
  have hdel : Idle (Conn.setDeleteElements existing toDel) := ite (throw _) (queue _)
  have hadd : Idle (Conn.setAddElements existing toAdd) := ite (throw _) (queue _)
  unfold MultiNetPolicy.updateElements
  exact ite (bind (wrapErr hdel _) fun _ => ite (wrapErr hadd _) (pure _))
    (ite (wrapErr hadd _) (pure _))

theorem addSet (set : NftSet) (els : List SetElement) : Idle (Conn.addSet set els) := by
  unfold Conn.addSet
  exact ite (bind allocateTransactionID fun _ => bind (queue _) fun _ => pure _)
    (bind (pure _) fun _ => bind (queue _) fun _ => pure _)

/-- A set is queued only. -/
theorem updateSet (set : NftSet) (els : List SetElement) : Idle (updateSet h set els) := by
  have htrack : ∀ (key : Str) (x : NftSet), Idle (do
      trackSet key
      return x) := fun _ _ => bind (modify fun _ => rfl) fun _ => pure _
  unfold MultiNetPolicy.updateSet
  refine bind (wrapErr (query _) _) fun found => ?_
  cases found with
  | some existing =>
    exact bind (mapErr (query _) _) fun _ => bind (updateElements _ _ _) fun _ => htrack _ _
  | none => exact bind (addSet _ _) fun _ => htrack _ _

/-- A chain is queued only. -/
theorem addChain (c : Chain) : Idle (addChain h c) := by
  have hlist : Idle (Conn.listChain h c.table (shortName c.name)) := fun _ _ hs => ⟨hs, trivial⟩
  have htrack : ∀ (key : Str) (x : Chain), Idle (do
      trackChain key
      return x) := fun _ _ => bind (modify fun _ => rfl) fun _ => pure _
  unfold MultiNetPolicy.addChain
  refine bind hlist fun found => ?_
  cases found with
  | some x => exact htrack _ _
  | none => exact bind (queue _) fun _ => htrack _ _

theorem addTable (t : Str) : Idle (addTable h t) :=
  bind (wrapErr (query _) _) fun _ => ite (pure _) (queue _)

/-- **A rendering program commits nothing.** -/
theorem run (p : Render α) : Idle (p.run h) := by
  induction p with
  | ret a => exact pure a
  | fail e => exact throw e
  | chain w c k ih => exact bind ((addChain c).mapErr w) ih
  | set w s els k ih => exact bind ((updateSet s els).mapErr w) ih
  | rule w r a force k ih => exact bind ((updateRule r a force).mapErr w) ih

/-- What is known of the ruleset stays known. -/
theorem triple {x : M α} (hx : Idle x) (I : Kernel → Prop) :
    Triple (fun s => I s.kernel) x (fun _ s => I s.kernel) fun s => I s.kernel :=
  (hx I).conseq (fun _ hs => hs) fun _ _ hs => hs.1

end Idle

/-! ### Failing before the cleanup -/

/-- Dropping legacy objects is not seen outside the legacy tables. -/
theorem filter_outside_legacy {α : Type} {table : α → Str} {l : List α} {p : α → Bool}
    (hp : ∀ x ∈ l, legacyNames.contains (table x) = false → p x = true) :
    (l.filter p).filter (fun x => !legacyNames.contains (table x)) =
      l.filter fun x => !legacyNames.contains (table x) := by
  rw [List.filter_filter]
  refine List.filter_congr fun x hx => ?_
  cases hl : legacyNames.contains (table x) with
  | true => rfl
  | false => rw [hp x hx hl, Bool.and_true]

/-- The legacy cleanup is not seen outside its tables. -/
theorem Spared.agreeOutside {k k' : Kernel} (hs : Spared k k') : k.AgreeOutside legacyNames k' := by
  obtain ⟨-, ⟨p, hp, hrules⟩, ⟨q, hq, hchains⟩, ⟨u, hu, hsets⟩, ⟨v, hv, helements⟩, -⟩ := hs
  refine ⟨?_, ?_, ?_, ?_⟩
  · rw [hp]
    exact filter_outside_legacy fun r hr hl =>
      hrules r hr (by rw [Rule.isLegacy, hl, Bool.false_and])
  · rw [hq]
    exact filter_outside_legacy fun c hc hl =>
      hchains c hc (by rw [Chain.isLegacy, hl, Bool.false_and])
  · rw [hu]
    exact filter_outside_legacy fun x hx hl =>
      hsets x hx (by rw [NftSet.isLegacy, hl, Bool.false_and])
  · rw [hv]
    exact filter_outside_legacy fun e he hl =>
      helements e he fun x _ hx _ => by rw [NftSet.isLegacy, hx, hl, Bool.false_and]

/-- The batch is queued; what was committed on the way spares all but legacy objects. -/
theorem triple_queueRules (h : Host) (i : Input) {k : Kernel} (wf : k.WF) (hnames : k.SetsNamed) :
    Triple (fun s => s = State.new k) (queueRules h i) (fun _ s => Spared k s.kernel)
      fun s => Spared k s.kernel := by
  have hlegacy : Triple (fun s => s = State.new k) (cleanupLegacyTables h)
      (fun _ s => Spared k s.kernel) fun s => Spared k s.kernel := by
    rintro s rfl
    cases hs : cleanupLegacyTables h (State.new k) with
    | ok u s =>
      exact ((cleanupLegacyTables_spec hnames).of_ok (legacyRun_new h wf) hs).kernel.spared
    | error e s => exact ((cleanupLegacyTables_spec hnames).of_error (legacyRun_new h wf) hs).spared
  have htables : Idle (do
      wrapErr (str "failed to add table") (addTable h filterTableName)
      wrapErr (str "failed to add table") (addTable h natTableName)) :=
    Idle.bind ((Idle.addTable _).wrapErr _) fun _ => (Idle.addTable _).wrapErr _
  have hboot : Triple (fun s => s = State.new k) (bootstrapTables h i)
      (fun _ s => Spared k s.kernel) fun s => Spared k s.kernel := by
    refine Triple.ite (fun _ => Triple.throw fun s hs => ?_) fun _ =>
      hlegacy.bind fun _ => htables.triple (Spared k)
    rw [hs]
    exact Spared.refl k
  exact (triple_wrapErr hboot _).bind fun _ => (Idle.run _).triple (Spared k)

/-- **A run that fails before or in its main flush leaves the daemon's tables as they were**, and of
the legacy tables all but daemon-owned objects. -/
theorem failed_render_changes_nothing {h : Host} {i : Input} {k : Kernel} (wf : k.WF)
    (hnames : k.SetsNamed) {e : Error} {s : State}
    (hs : commitRules h i (State.new k) = .error e s) :
    applyPolicyRulesForPodAndFamily h i (State.new k) = .error e s ∧
    s.kernel.tables = k.tables ∧ k.AgreeOutside legacyNames s.kernel ∧ Spared k s.kernel := by
  have hcommit : Triple (fun s => s = State.new k) (commitRules h i) (fun _ _ => True)
      fun s => Spared k s.kernel :=
    (triple_queueRules h i wf hnames).bind fun _ =>
      triple_wrapErr
        (triple_flush fun s hs => ⟨fun _ _ => trivial, fun _ => (hs : Spared k s.kernel)⟩) _
  have hspared := hcommit.of_error rfl hs
  refine ⟨?_, hspared.tables, hspared.agreeOutside, hspared⟩
  unfold applyPolicyRulesForPodAndFamily
  rw [bind_apply, hs]

/-- A policy whose address block is no prefix. -/
def badBlockInput : Input :=
  podInput [str "net1"] (onePolicy (ingressPolicy (str "a") isDNS1123Subdomain_a (str "net1")
    [⟨[], [⟨none, none, some ⟨str "10.1.0.0", []⟩⟩]⟩]))

set_option maxRecDepth 100000 in
/-- A bad policy arrives when the tables of a pod are in place. -/
theorem bad_block_changes_nothing : ∃ s₁ e s₂,
    applyPolicyRulesForPodAndFamily Host.reliable (podInput [str "net1"] noPolicies)
      (State.new (mixedRuleset [.counter])) = .ok () s₁ ∧
    applyPolicyRulesForPodAndFamily Host.reliable badBlockInput (State.new s₁.kernel) =
      .error e s₂ ∧
    s₂.kernel.tables = s₁.kernel.tables ∧ s₁.kernel.AgreeOutside legacyNames s₂.kernel := by
  have hrun : (outcome Host.reliable (podInput [str "net1"] noPolicies)
      (mixedRuleset [.counter])).any (fun s₁ =>
        (failedState (commitRules Host.reliable badBlockInput) (State.new s₁.kernel)).isSome &&
          decide (∀ x ∈ s₁.kernel.sets, ∀ y ∈ s₁.kernel.sets,
            x.table = y.table → x.name = y.name → x = y)) = true := by
    decide +kernel
  obtain ⟨s₁, hs₁, hrun⟩ := (Option.any_eq_true _ _).1 hrun
  rw [Bool.and_eq_true, decide_eq_true_iff] at hrun
  rw [outcome_eq_some] at hs₁
  obtain ⟨-, -, -, hwf, -⟩ := apply_ok (mixedRuleset_wf _) hs₁
  obtain ⟨s₂, hfail⟩ := Option.isSome_iff_exists.1 hrun.1
  obtain ⟨e, hs₂⟩ := failedState_eq_some hfail
  obtain ⟨happly, htables, hagree, -⟩ := failed_render_changes_nothing hwf hrun.2 hs₂
  exact ⟨s₁, e, s₂, hs₁, happly, htables, hagree⟩

end MultiNetPolicy
