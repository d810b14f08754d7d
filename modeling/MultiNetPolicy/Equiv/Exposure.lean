import MultiNetPolicy.Equiv.Comments
import MultiNetPolicy.Equiv.Fixpoint
import MultiNetPolicy.Equiv.Spared

/-!
# Packets in the middle of an update

A run commits its new rules and the new contents of its sets before it deletes what is stale.  In
between, a rule of a policy can have the old ports with the new peers, so that packets pass that
neither the old nor the new policies let pass.

What a packet sees of a ruleset are the rules of the filter table and the sets that these look up
(`Kernel.SameFilter`).  Only the first batch of the cleanup changes that, so that the state behind
the main flush is the only one in which a packet can be treated differently.  A run that leaves all
committed rules in place (`Input.OnlyAdds`), or whose rules and sets are all committed already
(`Input.OnlyRemoves`), does not have such a state.
-/

namespace MultiNetPolicy

open ByteString StateExcept

/-! ### What a packet sees -/

/-- The base chain of a direction. -/
def Direction.base : Direction → Str
  | ingress => str "input"
  | egress => str "output"

/-- A packet passes the daemon's filter table. -/
def Kernel.LetsThrough (bo : ByteOrder) (k : Kernel) (d : Direction) (pkt : Packet)
    (m : BitVec 32) : Prop :=
  (evalChain bo k pkt filterTableName d.base m).2 ≠ .drop

instance (bo : ByteOrder) (k : Kernel) (d : Direction) (pkt : Packet) (m : BitVec 32) :
    Decidable (k.LetsThrough bo d pkt m) :=
  inferInstanceAs (Decidable ((evalChain bo k pkt filterTableName d.base m).2 ≠ .drop))

/-- Two rulesets have the same rules in the filter table, and where these look up a set, the set has
the same contents. -/
structure Kernel.SameFilter (k k' : Kernel) : Prop where
  rules : ∀ c, k'.chainRules filterTableName c = k.chainRules filterTableName c
  sets : ∀ c, ∀ r ∈ k.chainRules filterTableName c, ∀ x ∈ r.lookups, ∀ key,
    k'.lookupSet filterTableName x.1 key = k.lookupSet filterTableName x.1 key

/-- A lookup depends on the set. -/
theorem Kernel.lookupSet_congr {k k' : Kernel} {t n : Str} (hset : k'.findSet t n = k.findSet t n)
    (hels : k'.getElements t n = k.getElements t n) (key : Str) :
    k'.lookupSet t n key = k.lookupSet t n key := by
  unfold lookupSet
  rw [hset, hels]

namespace Kernel.SameFilter

variable {k k' k'' : Kernel}

theorem symm (h : k.SameFilter k') : k'.SameFilter k where
  rules c := (h.rules c).symm
  sets c r hr x hx key := by
    rw [h.rules] at hr
    exact (h.sets c r hr x hx key).symm

theorem trans (h : k.SameFilter k') (h' : k'.SameFilter k'') : k.SameFilter k'' where
  rules c := (h'.rules c).trans (h.rules c)
  sets c r hr x hx key := by
    have hr' : r ∈ k'.chainRules filterTableName c := by
      rw [h.rules]
      exact hr
    exact (h'.sets c r hr' x hx key).trans (h.sets c r hr x hx key)

/-- Rulesets with the same filter table. -/
theorem of_eq (hrules : ∀ c, k'.chainRules filterTableName c = k.chainRules filterTableName c)
    (hsets : ∀ n, k'.findSet filterTableName n = k.findSet filterTableName n)
    (hels : ∀ n, k'.getElements filterTableName n = k.getElements filterTableName n) :
    k.SameFilter k' :=
  ⟨hrules, fun _ _ _ x _ => lookupSet_congr (hsets x.1) (hels x.1)⟩

theorem of_agree {ts : List Str} (ha : k.AgreeOutside ts k')
    (ht : ts.contains filterTableName = false) : k.SameFilter k' :=
  of_eq (ha.chainRules ht) (ha.findSet ht) (ha.getElements ht)

/-- **A packet is treated the same.** -/
theorem letsThrough_iff (h : k.SameFilter k') (bo : ByteOrder) (d : Direction) (pkt : Packet)
    (m : BitVec 32) : k'.LetsThrough bo d pkt m ↔ k.LetsThrough bo d pkt m := by
  have hexec : ∀ c, ∀ r ∈ k.chainRules filterTableName c, ∀ mark,
      (tableMachine bo k pkt filterTableName).exec r mark =
        (tableMachine bo k' pkt filterTableName).exec r mark := by
    intro c r hr mark
    refine evalExprs_congr bo k pkt filterTableName (fun reg name id he key => ?_) _ mark
    exact h.sets c r hr (name, id) (Rule.mem_lookups.2 ⟨reg, he⟩) key
  have heval : evalChain bo k pkt filterTableName d.base m =
      evalChain bo k' pkt filterTableName d.base m :=
    ChainMachine.evalChain_congr h.rules hexec jumpStackSize d.base m
  unfold LetsThrough
  rw [heval]

end Kernel.SameFilter

/-! ### Behind the first batch of the cleanup -/

section Stages

variable {h : Host} {i : Input} {k : Kernel} {s₀ s₁ s₂ s₃ s : State} {es : List Event}

/-- The cleanup of the other table is not seen. -/
theorem Stages.sameFilter_nat (wf : k.WF) (hst : Stages h i k s₀ s₁ s₂ s₃ s)
    (hf : MainFlush h i s₀ es s₁) : s₂.kernel.SameFilter s₃.kernel := by
  obtain ⟨ht₂, -⟩ := hst.tracked wf hf
  obtain ⟨-, q, rfl⟩ := cleanupRules_commits ht₂.messages hst.natRules
  have ha : s₂.kernel.AgreeOutside [natTableName]
      (s₂.kernel.commit (staleOps h natTableName s₂)) := by
    refine (Kernel.AgreeOutside.refl _ _).commit fun op hop => ?_
    rcases List.mem_append.1 hop with hop | hop
    · obtain ⟨c, handle, rfl⟩ := mem_staleChainOps hop
      exact show [natTableName].contains natTableName = true by decide
    · obtain ⟨n, rfl, -⟩ := mem_staleSetOps hop
      exact show [natTableName].contains natTableName = true by decide
  exact .of_agree ha (by decide)

/-- The deletion of empty chains is not seen: a jump to a chain that is not there comes back. -/
theorem Stages.sameFilter_chains (wf : k.WF) (hst : Stages h i k s₀ s₁ s₂ s₃ s)
    (hf : MainFlush h i s₀ es s₁) : s₃.kernel.SameFilter s.kernel := by
  obtain ⟨-, ht₃⟩ := hst.tracked wf hf
  obtain ⟨hrules, -⟩ := hst.rules_requested wf hf
  have hsets := cleanupChains_keeps_set ht₃.messages hst.chains
  refine .of_eq (fun c => ?_) (fun n => (hsets _ n).1) fun n => (hsets _ n).2
  unfold Kernel.chainRules Kernel.getRules
  rw [hrules]

end Stages

/-! ### Updates in one direction -/

/-- The rules an input asks for, as they are listed. -/
def Input.requestedRules (bo : ByteOrder) (i : Input) : List Rule :=
  (i.requests bo).filterMap fun
    | .rule r _ => some r.erase
    | _ => none

/-- The rules that an execution asks for are those of the input. -/
theorem mem_requestedRules {bo : ByteOrder} {i : Input} {es : List Event} {u : Unit}
    (hexec : Render.Exec (Render.renderInput bo i) es u) {r : Rule} :
    r ∈ i.requestedRules bo ↔ ∃ q ∈ rulesOf es, q.content = r := by
  unfold Input.requestedRules
  rw [requests_of_exec hexec]
  simp only [List.mem_filterMap, List.mem_map]
  constructor
  · rintro ⟨_, ⟨e, he, rfl⟩, heq⟩
    cases e with
    | chain c => cases heq
    | set x els fresh => cases heq
    | rule q action force isNew =>
      exact ⟨q, mem_rulesOf.2 ⟨action, force, isNew, he⟩, Option.some.inj heq⟩
  · rintro ⟨q, hq, rfl⟩
    obtain ⟨action, force, isNew, he⟩ := mem_rulesOf.1 hq
    exact ⟨_, ⟨_, he, rfl⟩, rfl⟩

/-- Every rule of the filter table is asked for again, and no set is new. -/
structure Input.OnlyAdds (i : Input) (bo : ByteOrder) (k : Kernel) : Prop where
  sets : ∀ x ∈ i.requestedSets bo, k.hasSet x.1.table x.1.name = true
  rules : ∀ r ∈ k.rules, r.table = filterTableName → r.content ∈ i.requestedRules bo

instance (i : Input) (bo : ByteOrder) (k : Kernel) : Decidable (i.OnlyAdds bo k) :=
  decidable_of_iff ((∀ x ∈ i.requestedSets bo, k.hasSet x.1.table x.1.name = true) ∧
    ∀ r ∈ k.rules, r.table = filterTableName → r.content ∈ i.requestedRules bo)
    ⟨fun hadds => ⟨hadds.1, hadds.2⟩, fun hadds => ⟨hadds.sets, hadds.rules⟩⟩

/-- Everything that is asked for is committed. -/
def Input.OnlyRemoves (i : Input) (bo : ByteOrder) (k : Kernel) : Prop :=
  ∀ q ∈ i.requests bo, q.Settled k

section OneDirection

variable {h : Host} {i : Input} {k : Kernel} {s₀ s₁ s₂ s₃ s : State} {es : List Event}

/-- When no rule of the filter table is stale, each was asked for in this run as it is listed. -/
theorem Input.OnlyAdds.known (wf : k.WF) (hst : Stages h i k s₀ s₁ s₂ s₃ s)
    (hf : MainFlush h i s₀ es s₁) (hadds : i.OnlyAdds h.byteOrder k) {r : Rule}
    (hr : r ∈ s₁.kernel.rules) (ht : r.table = filterTableName) :
    ∃ q ∈ rulesOf es, q.listed = q ∧ q.content = r.content := by
  have hsound := Render.sound_renderInput hf.exec
  obtain ⟨hinv, -⟩ := cleanupLegacyTables_keeps.of_ok (legacyInv_new wf) hst.legacy
  obtain ⟨-, ops, -, hq, -⟩ := hf.kernel
  have hq : Queued k es ops := hq.congr hinv.agree fun e he => hsound.managed he
  have hold := (forall_setsOf_iff hf.exec (P := fun t n => k.hasSet t n = true)).2 hadds.sets
  have hm : isManaged r.table = true := by
    rw [ht]
    decide
  obtain ⟨q, hqr, hcontent⟩ := exists_content_of_main wf hst.main hr hm
  have hasked : ∃ q' ∈ rulesOf es, q'.content = r.content := by
    rcases hqr with hqr | ⟨hqk, hqt⟩
    · rw [hf.requested] at hqr
      exact ⟨q, hqr, hcontent⟩
    · rw [← hcontent]
      exact (mem_requestedRules hf.exec).1 (hadds.rules q hqk (hqt.trans ht))
  obtain ⟨q', hq', hcontent'⟩ := hasked
  exact ⟨q', hq', listed_eq_of_old hsound hq hold hq', hcontent'⟩

/-- Then the cleanup deletes nothing that a packet sees. -/
theorem Stages.sameFilter_of_onlyAdds (wf : k.WF) (hst : Stages h i k s₀ s₁ s₂ s₃ s)
    (hf : MainFlush h i s₀ es s₁) (hadds : i.OnlyAdds h.byteOrder k) :
    s₁.kernel.SameFilter s₂.kernel := by
  have hsound := Render.sound_renderInput hf.exec
  obtain ⟨-, -, -, wf₁, -⟩ := commitRules_ok wf hst.main
  obtain ⟨-, hrules⟩ := cleanupRules_ok wf₁ hf.messages hst.filterRules
  have hsame : s₂.kernel.rules = s₁.kernel.rules := by
    rw [hrules]
    refine List.filter_eq_self.2 fun r hr => ?_
    rw [Bool.not_eq_true', Bool.and_eq_false_imp, beq_iff_eq]
    intro ht
    obtain ⟨q, hq, hlisted, hcontent⟩ := hadds.known wf hst hf hr ht
    have hkey : hashRule h r.listed = hashRule h q := by
      calc hashRule h r.listed = hashRule h r.content := rfl
        _ = hashRule h q.content := by rw [hcontent]
        _ = hashRule h q.listed := rfl
        _ = hashRule h q := by rw [hlisted]
    rw [Bool.not_eq_false', List.contains_iff_mem, hf.rules, hkey]
    exact List.mem_map_of_mem hq
  refine ⟨fun c => by unfold Kernel.chainRules Kernel.getRules; rw [hsame], fun c r hr x hx => ?_⟩
  rw [Kernel.chainRules_eq] at hr
  obtain ⟨r₀, hr₀, ⟨ht, -⟩, rfl⟩ := mem_inView.1 hr
  -- the rule looks up a set that was asked for
  obtain ⟨q, hq, hlisted, hcontent⟩ := hadds.known wf hst hf hr₀ ht
  have hqt : q.table = filterTableName := (congrArg Rule.table hcontent).trans ht
  have hlookup : x ∈ q.lookups := by
    rw [← hcontent] at hx
    have hx : x ∈ q.listed.lookups := hx
    rwa [hlisted] at hx
  obtain ⟨x', hx', ht', rfl⟩ := hsound.resolved q hq x hlookup
  have hkey : objectKey filterTableName x'.name ∈ s₁.sets := by
    rw [hf.sets, ← hqt, ← ht']
    exact List.mem_map_of_mem (f := fun x : NftSet => objectKey x.table x.name) hx'
  obtain ⟨hset, hels⟩ := cleanupRules_keeps_set hf.messages hst.filterRules hkey
  exact Kernel.lookupSet_congr hset hels

/-- Messages that add what is there. -/
theorem Kernel.commit_of_present : ∀ {ops : List Op} {k : Kernel},
    (∀ op ∈ ops, (∃ t, op = .addTable t) ∨
      ∃ c, op = .addChain c ∧ k.hasChain c.table c.name = true) →
    (k.commit ops).rules = k.rules ∧ (k.commit ops).sets = k.sets ∧
      (k.commit ops).elements = k.elements
  | [], _, _ => ⟨rfl, rfl, rfl⟩
  | op :: ops, k, hops => by
    have hrest := fun o ho => hops o (List.mem_cons_of_mem _ ho)
    rw [commit_cons]
    rcases hops op (List.mem_cons_self ..) with ⟨t, rfl⟩ | ⟨c, rfl, hc⟩
    · rw [Kernel.apply]
      split
      · exact commit_of_present hrest
      · exact commit_of_present (k := { k with tables := k.tables ++ [t] }) hrest
    · rw [Kernel.apply, if_pos hc]
      exact commit_of_present hrest

/-- A call for what is there queues at most a chain that exists. -/
theorem Event.Queues.of_settled {e : Event} {ops : List Op} (hq : e.Queues k ops)
    (hs : e.request.Settled k) (hset : ∀ x els fresh, e = .set x els fresh → fresh = false)
    (hrule : ∀ r action force isNew, e = .rule r action force isNew →
      r.listed = r ∧ force = false) :
    ∀ op ∈ ops, ∃ c, op = .addChain c ∧ k.hasChain c.table c.name = true := by
  intro op hop
  cases e with
  -- chains are sent again even if they exist; sets and rules are looked up first
  | chain c =>
    rcases hq with rfl | ⟨-, rfl⟩
    · exact ⟨c, List.mem_singleton.1 hop, hs⟩
    · cases hop
  | set x els fresh =>
    obtain rfl := hset x els fresh rfl
    have hnil : ops = [] := by
      rw [hq.2, if_neg Bool.false_ne_true]
      exact updateElementOps_eq_nil_iff.2 hs.2
    rw [hnil] at hop
    cases hop
  | rule r action force isNew =>
    obtain ⟨hlisted, rfl⟩ := hrule r action force isNew rfl
    have hfound : (k.findRule r).isSome = true := by
      rw [← hlisted]
      exact hs
    obtain ⟨x, hx⟩ := Option.isSome_iff_exists.1 hfound
    rw [Event.Queues, hx] at hq
    rw [hq.2, if_neg Bool.false_ne_true] at hop
    cases hop

/-- When everything is there, the main flush changes nothing that a packet sees. -/
theorem Stages.sameFilter_of_onlyRemoves (wf : k.WF) (hst : Stages h i k s₀ s₁ s₂ s₃ s)
    (hf : MainFlush h i s₀ es s₁) (hremoves : i.OnlyRemoves h.byteOrder k) :
    k.SameFilter s₁.kernel := by
  have hsound := Render.sound_renderInput hf.exec
  obtain ⟨hinv, -⟩ := cleanupLegacyTables_keeps.of_ok (legacyInv_new wf) hst.legacy
  obtain ⟨tables, ops, htables, hq, hk⟩ := hf.kernel
  -- the legacy cleanup leaves everything in place
  have hsettled : ∀ e ∈ es, e.request.Settled s₀.kernel := by
    intro e he
    have hmem : e.request ∈ i.requests h.byteOrder := by
      rw [requests_of_exec hf.exec]
      exact List.mem_map_of_mem he
    refine (hremoves _ hmem).agree hinv.agree ?_
    have hm := hsound.managed he
    cases e <;> exact hm
  have hold : ∀ x ∈ setsOf es, s₀.kernel.hasSet x.table x.name = true := by
    intro x hx
    obtain ⟨els, fresh, he⟩ := mem_setsOf.1 hx
    exact (hsettled _ he).1
  have hids : ∀ x ∈ setsOf es, x.id = 0 := by
    intro x hx
    obtain ⟨els, fresh, he⟩ := mem_setsOf.1 hx
    exact (id_eq_zero_iff hsound hq he).2 (hold x hx)
  have hlisted : ∀ r ∈ rulesOf es, r.listed = r := fun r hr => listed_eq_of_old hsound hq hold hr
  -- so no set and no rule is new, and then nothing is forced
  have hold' : ∀ r action force isNew, .rule r action force isNew ∈ es → isNew = false := by
    intro r action force isNew he
    have hfound : (s₀.kernel.findRule r).isSome = true := by
      have hs := hsettled _ he
      rw [← hlisted r (mem_rulesOf.2 ⟨action, force, isNew, he⟩)]
      exact hs
    obtain ⟨x, hx⟩ := Option.isSome_iff_exists.1 hfound
    obtain ⟨ops', hqueues, -⟩ := hq.queues_of_mem _ he
    rw [Event.Queues, hx] at hqueues
    exact hqueues.1
  have hforce := (Render.quiet_renderInput i).not_forced hf.exec hids hold'
  -- what is queued are chains that exist
  have hops : ∀ op ∈ ops, ∃ c, op = .addChain c ∧ s₀.kernel.hasChain c.table c.name = true := by
    refine hq.forall_mem fun e he ops' hqueues => ?_
    refine hqueues.of_settled (hsettled e he) (fun x els fresh heq => ?_)
      fun r action force isNew heq => ?_
    · subst heq
      rw [hqueues.1, hold x (mem_setsOf.2 ⟨els, fresh, he⟩)]
      rfl
    · subst heq
      exact ⟨hlisted r (mem_rulesOf.2 ⟨action, force, isNew, he⟩), hforce r action force isNew he⟩
  have hpresent : ∀ op ∈ tables ++ ops, (∃ t, op = .addTable t) ∨
      ∃ c, op = .addChain c ∧ s₀.kernel.hasChain c.table c.name = true := by
    intro op hop
    rcases List.mem_append.1 hop with hop | hop
    · obtain ⟨t, -, rfl⟩ := htables op hop
      exact .inl ⟨t, rfl⟩
    · exact .inr (hops op hop)
  obtain ⟨hrules, hsets, hels⟩ := Kernel.commit_of_present hpresent
  rw [← hk] at hrules hsets hels
  have hmain : s₀.kernel.SameFilter s₁.kernel := by
    refine .of_eq (fun c => ?_) (fun n => ?_) fun n => ?_
    · unfold Kernel.chainRules Kernel.getRules
      rw [hrules]
    · unfold Kernel.findSet
      rw [hsets]
    · unfold Kernel.getElements
      rw [hels]
  exact (Kernel.SameFilter.of_agree hinv.agree (by decide)).trans hmain

/-- The ruleset drops no packet of the direction. -/
def Kernel.Open (bo : ByteOrder) (k : Kernel) (d : Direction) : Prop :=
  ∀ pkt m, k.LetsThrough bo d pkt m

end OneDirection

/-! ### A kernel that refuses -/

/-- The message changes the elements of a constant set that a rule looks up. -/
def Kernel.changesBusy (k : Kernel) : Op → Bool
  | .addElements t n _ => k.isBusy t n
  | .deleteElements t n _ => k.isBusy t n
  | _ => false

/-- No message of a batch changes such a set when its turn comes. -/
def Kernel.sparesBusy : Kernel → List Op → Bool
  | _, [] => true
  | k, op :: ops => !k.changesBusy op && sparesBusy (k.apply op) ops

/-- Listings do not fail, and the kernel refuses user data that is too long, the deletion of what is
in use and changes to constant sets that are. -/
def Host.guarded : Host :=
  { Host.reliable with
    accepts := fun k ops => ops.all Op.userDataFits && k.sparesUsed ops && k.sparesBusy ops }

/-- A policy with one rule for the pod's interface. -/
def oneRuleInput (ports : List (Protocol × Nat)) (blocks : List IPBlock) : Input :=
  podInput [str "net1"] (onePolicy (ingressPolicy (str "web") isDNS1123Subdomain_web (str "net1")
    [⟨ports.map fun x => ⟨some x.1, some (.int x.2), none⟩,
      blocks.map fun x => ⟨none, none, some x⟩⟩]))

/-- The block `10.0.0.0/8` without a part of it, open for one port. -/
def exceptInput (exception : Str) : Input :=
  oneRuleInput [(.tcp, 80)] [⟨str "10.0.0.0/8", [exception]⟩]

/-- A UDP packet to port 53 from an IPv4 address that comes in on an interface. -/
def udpPacket (interface source : Str) : Packet :=
  { tcpPacket interface source with l4proto := 17, transportHeader := [0x80, 0, 0, 53] }

/-- One block has TCP port 80 and UDP port 53. -/
def beforeInput : Input := oneRuleInput [(.tcp, 80), (.udp, 53)] [⟨str "10.1.0.0/16", []⟩]

/-- Everyone has TCP port 80. -/
def afterInput : Input := oneRuleInput [(.tcp, 80)] []

end MultiNetPolicy
