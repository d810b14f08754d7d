import MultiNetPolicy.Equiv.Fixpoint
import MultiNetPolicy.Equiv.SetUses

/-!
# Two runs in a row

When a run succeeds and needs no new set, the next run for the same pods and policies queues nothing
and deletes nothing, exactly if

* calls for one set want the same keys (`Input.SetsAgree`), and
* the next run takes the addresses of every selector peer for the same version
  (`Input.SameVersions`), which the order of the listed pods and of the address map decides when a
  peer has both IPv4-mapped and other IPv6 addresses.

The second condition is met by a run in the same order, and by every order when all or none of a
peer's IPv6 addresses are IPv4-mapped (`Input.EvenVersions`).
-/

namespace MultiNetPolicy

open ByteString StateExcept Render

/-! ### The sets behind a run -/

/-- Every set of the daemon's tables was asked for by the run that left it. -/
theorem exists_set_of_hasSet {h : Host} {i : Input} {k : Kernel} {s : State} (wf : k.WF)
    (hs : applyPolicyRulesForPodAndFamily h i (State.new k) = .ok () s)
    (hanon : ∀ x ∈ s.kernel.sets, isManaged x.table = true → x.anonymous = false) :
    ∃ es, Exec (renderInput h.byteOrder i) es () ∧ ∀ t n, isManaged t = true →
      s.kernel.hasSet t n = true → ∃ x els fresh, .set x els fresh ∈ es ∧ x.name = n := by
  obtain ⟨s₀, s₁, s₂, s₃, es, hst, hf⟩ := exists_stages wf hs
  obtain ⟨ht₂, ht₃⟩ := hst.tracked wf hf
  refine ⟨es, hf.exec, fun t n ht hset => ?_⟩
  obtain ⟨y, hy, hyt, hyn⟩ := Kernel.hasSet_iff.1 hset
  have hym : isManaged y.table = true := by
    rw [hyt]
    exact ht
  have hkey := hst.sets_known hf.tracked ht₂ ht₃ hy hym (hanon y hy hym)
  rw [hf.sets] at hkey
  obtain ⟨x, hx, hxy⟩ := List.mem_map.1 hkey
  obtain ⟨els, fresh, he⟩ := mem_setsOf.1 hx
  have hxm := (sound_renderInput hf.exec).set x hx
  exact ⟨x, els, fresh, he, (objectKey_inj hxm hym hxy).2.trans hyn⟩

/-- The set of a list of addresses is that of the version of its first one. -/
theorem AddressCalls.set_of_head {bo : ByteOrder} {chainName : Str} {chain : Chain}
    {policyName : Str} {peer : MultiNetworkPolicyPeer} {peerIndex : Nat} {addrs : List Str}
    {es : List Event} (h : AddressCalls bo chainName chain policyName peer peerIndex addrs es)
    {a : Str} (ha : a ∈ addrs.head?) : ∃ id fresh,
      .set (selectorSetOf chain.table chainName peer peerIndex (isV6Key a) id) (keyElements addrs)
        fresh ∈ es := by
  cases h with
  | none => cases ha
  | set addr rest id fresh isNew =>
    obtain rfl := Option.some.inj ha
    exact ⟨id, fresh, List.mem_cons_self ..⟩

/-- The keys of addresses that are taken for different versions differ. -/
theorem ipKey_ne {a b : Str} (ha : (NetIP.parseAddr a).isSome = true) (hav6 : isV6Key a = true)
    (hb : (NetIP.parseAddr b).isSome = true) (hbv4 : isIPv4Text b = true) : ipKey b ≠ ipKey a := by
  intro heq
  have hzone : hasZone b = false := by
    by_contra hz
    rw [Bool.not_eq_false] at hz
    rw [isIPv4Text_eq_false (.inl hz)] at hbv4
    cases hbv4
  have hlen := ((ipKey_spec hb).2 hzone).2.1
  rw [heq, isV6Key_of_isIPv4Text hbv4] at hlen
  cases hz : hasZone a with
  | true =>
    rw [(ipKey_spec ha).1 hz] at hlen
    cases hlen
  | false =>
    rw [((ipKey_spec ha).2 hz).2.1, hav6] at hlen
    cases hlen

/-! ### Another order -/

section Orders

variable {h h' : Host} {i i' : Input} {k : Kernel} {s s₀ : State}

/-- A run in another order that queues nothing takes the addresses for the same versions.  Otherwise
it asks for a set of the other version, which nothing but the peer's IPv4 addresses can have asked
for; and then they want it with other keys. -/
theorem Undisturbed.sameVersions (wf : k.WF)
    (hs : applyPolicyRulesForPodAndFamily h i (State.new k) = .ok () s) (hre : i.Reordered i')
    (hnames : SetsDistinct i.setUses)
    (hanon : ∀ x ∈ s.kernel.sets, isManaged x.table = true → x.anonymous = false)
    (hleg : cleanupLegacyTables h' (State.new s.kernel) = .ok () s₀)
    (hu : Undisturbed h' i' s.kernel) : i.SameVersions i' := by
  obtain ⟨-, -, -, wf', -⟩ := apply_ok wf hs
  obtain ⟨es, hexec, hasked⟩ := exists_set_of_hasSet wf hs hanon
  obtain ⟨es', hexec', hfound⟩ := hu.found wf' hleg
  have hagree := hu.setsAgree wf' hleg
  intro d p hp x hx y hy hblock
  have hp' : p ∈ i'.policiesIn d := by
    rw [← hre.policiesIn]
    exact hp
  obtain ⟨addrs, haddrs, hparsed, hcalls⟩ := exists_addressCalls hexec hp hx hy hblock
  obtain ⟨addrs', haddrs', hparsed', hcalls'⟩ := exists_addressCalls hexec' hp' hx hy hblock
  rw [← hre.sortedInfo] at haddrs'
  have hmem : ∀ a, a ∈ addrs ↔ a ∈ addrs' := by
    rcases selectorAddresses_congr hre.deps i.sortedInfo
      (peersChainName (policyChainFullName d.entry p.policy) x.2) y.2 p.policyNetworks y.1 with
      ⟨l, l', hl, hl', hmem⟩ | ⟨e, e', he, -⟩
    · obtain rfl := Except.ok.inj (haddrs.symm.trans hl)
      obtain rfl := Except.ok.inj (haddrs'.symm.trans hl')
      exact hmem
    · cases haddrs.symm.trans he
  rw [haddrs, haddrs']
  change leadVersion addrs = leadVersion addrs'
  by_contra hne
  obtain ⟨a, a', ha, ha', hversion⟩ := exists_leads_of_ne hmem hne
  rw [← List.head?_filter] at ha ha'
  have hav6 := List.mem_of_mem_head? ha
  -- the set that the other order asks for is there, so the run has asked for it
  obtain ⟨es₆, hsub₆, hcalls₆⟩ := hcalls' _ (.inr rfl)
  obtain ⟨id₆, fresh₆, hset₆⟩ := hcalls₆.set_of_head ha'
  have hthere := (hfound _ _ _ (hsub₆ hset₆)).1
  rw [selectorSetOf_name] at hthere
  obtain ⟨z, els, fresh, hz, hname⟩ := hasked _ _ (by rfl) hthere
  -- with the addresses of this very peer
  obtain ⟨f, hf, -, b, hb, hbversion⟩ :=
    addressGroup_of_name hexec hnames hp hx hy hblock haddrs hz hname
  rcases hf with rfl | rfl
  · -- the IPv4 addresses: they want the set too, without the key of `a`
    have hbv4 := List.mem_filter.1 (List.mem_of_mem_head? hb)
    rw [isV6Key_of_isIPv4Text hbv4.2] at hbversion
    have hb' : b ∈ addrs'.filter isIPv4Text := List.mem_filter.2 ⟨(hmem b).1 hbv4.1, hbv4.2⟩
    obtain ⟨c, hc⟩ := Option.isSome_iff_exists.1 (List.isSome_head?.2 (List.ne_nil_of_mem hb'))
    have hcversion := isV6Key_of_isIPv4Text (List.mem_filter.1 (List.mem_of_mem_head? hc)).2
    obtain ⟨es₄, hsub₄, hcalls₄⟩ := hcalls' _ (.inl rfl)
    obtain ⟨id₄, fresh₄, hset₄⟩ := hcalls₄.set_of_head hc
    have hsame : (selectorSetOf (peersChainOf (policyChainFullName d.entry p.policy) x.2).table
        (peersChainName (policyChainFullName d.entry p.policy) x.2) y.1 y.2 (isV6Key c) id₄).name =
        (⟨d, p.policy, .selector x.2 y.2 (isV6Key a') (selectorText y.1)⟩ : SetUse).name := by
      rw [selectorSetOf_name, hbversion, hcversion]
    have hkeys := hagree.keysAgree hexec' _ _ _ _ _ _ _ _ (hsub₆ hset₆) (hsub₄ hset₄)
      ⟨selectorSetOf_table .., selectorSetOf_name d p.policy x.2 y (isV6Key a') id₆⟩
      ⟨selectorSetOf_table .., hsame⟩
    have ha₆ : a ∈ addrs'.filter fun a => !isIPv4Text a := by
      rw [List.mem_filter] at hav6 ⊢
      exact ⟨(hmem a).1 hav6.1, hav6.2⟩
    obtain ⟨w, hw, hwkey⟩ := hkeys.1 ⟨ipKey a, false, []⟩ (List.mem_map.2 ⟨a, ha₆, rfl⟩)
    obtain ⟨e, he, rfl⟩ := List.mem_map.1 hw
    obtain ⟨hemem, hev4⟩ := List.mem_filter.1 he
    refine ipKey_ne (hparsed a (List.mem_of_mem_filter hav6)) ?_ (hparsed' e hemem) hev4 hwkey
    rw [hbversion] at hversion
    exact Bool.eq_true_of_not_eq_false hversion
  · rw [ha] at hb
    obtain rfl := Option.some.inj hb
    exact hversion hbversion.symm

end Orders

/-! ### Two runs in a row -/

/-- The calls for one set agree in every order that takes the addresses for the same versions. -/
theorem Input.SetsAgree.reordered {i i' : Input} {bo : ByteOrder} (hagree : i'.SetsAgree bo)
    (hre : i.Reordered i') (hversions : i.SameVersions i') {rs : List Request}
    (hplan : (renderInput bo i).plan = some (rs, ())) : i.SetsAgree bo := by
  obtain ⟨rs', _, hplan', halike⟩ := (hre.sim_renderInput hversions bo).plan hplan
  have hasks : ∀ x ∈ i.requestedSets bo, ∃ els, SameElements x.2 els ∧
      (x.1, els) ∈ i'.requestedSets bo := by
    rintro ⟨t, els⟩ hx
    unfold Input.requestedSets Input.requests at hx ⊢
    rw [hplan] at hx
    rw [hplan']
    obtain ⟨q, hq, hqx⟩ := List.mem_filterMap.1 hx
    obtain ⟨q', hq', hqq⟩ := exists_mem_of_forall₂ halike.flip hq
    cases hqq with
    | chain c => cases hqx
    | rule r action => cases hqx
    | set z hels =>
      cases hqx
      exact ⟨_, hels, List.mem_filterMap.2 ⟨_, hq', rfl⟩⟩
  intro x hx y hy ht hn
  obtain ⟨els, hels, hx'⟩ := hasks x hx
  obtain ⟨els', hels', hy'⟩ := hasks y hy
  have hkeys : SameKeys els els' := hagree _ hx' _ hy' ht hn
  exact ((hkeys.congr_left fun z => (hels z).symm).symm.congr_left
    fun z => (hels' z).symm).symm

/-! ### Two runs in a row -/

/-- **The steady state is a fixpoint exactly when calls for one set agree** and, in another order of
pods and policies, the addresses are taken for the same versions. -/
theorem steady_state_iff {h h' : Host} {i : Input} {k : Kernel} {s : State} (hm : h.SameMachine h')
    (hf : ∀ n, h'.fault n = false) (wf : k.WF)
    (hs : applyPolicyRulesForPodAndFamily h i (State.new k) = .ok () s)
    (hold : ∀ x ∈ i.requestedSets h.byteOrder, k.hasSet x.1.table x.1.name = true) :
    (i.SetsAgree h.byteOrder → Undisturbed h' i s.kernel) ∧
      (∀ s₀, cleanupLegacyTables h' (State.new s.kernel) = .ok () s₀ →
        Undisturbed h' i s.kernel → i.SetsAgree h.byteOrder) ∧
      (∀ i', i.Reordered i' → i.SetsAgree h.byteOrder → i.SameVersions i' →
        Undisturbed h' i' s.kernel) ∧
      (∀ i' s₀, i.Reordered i' → cleanupLegacyTables h' (State.new s.kernel) = .ok () s₀ →
        SetsDistinct i.setUses →
        (∀ x ∈ s.kernel.sets, isManaged x.table = true → x.anonymous = false) →
        Undisturbed h' i' s.kernel → i.SetsAgree h.byteOrder ∧ i.SameVersions i') ∧
      (i.EvenVersions → ∀ i', i.Reordered i' → i.SameVersions i') := by
  obtain ⟨es, hexec, -, wf', -⟩ := apply_ok wf hs
  have hintf := interfaces_of_ok hs
  -- the rendering does not depend on the kernel, so the second run asks for the same
  have hplan : (Render.renderInput h'.byteOrder i).plan = some (es.map Event.request, ()) := by
    have hsteady := @Render.steady_renderInput h.byteOrder i
    unfold Render.Steady Render.Follows at hsteady
    obtain ⟨_, hplan, -⟩ := hsteady es () hexec
    rw [← hm.byteOrder]
    exact hplan
  -- what the first run left is what is asked for
  have hin : i.SetsAgree h.byteOrder → InPlace h' (i.requests h'.byteOrder) s.kernel := by
    intro hagree
    rw [← hm.byteOrder]
    exact (inPlace_of_run wf hs hold hagree).host hm
  refine ⟨fun hagree => (hin hagree).undisturbed hf wf' ⟨_, hplan⟩ hintf, fun s₀ hleg hu => ?_,
    fun i' hre hagree hversions => ?_, fun i' s₀ hre hleg hnames hanon hu => ?_,
    fun heven i' hre => hre.sameVersions_of_even heven⟩
  · rw [hm.byteOrder]
    exact hu.setsAgree wf' hleg
  · obtain ⟨rs', _, hplan', halike⟩ := (hre.sim_renderInput hversions h'.byteOrder).plan hplan
    have hrs' : i'.requests h'.byteOrder = rs' := by
      unfold Input.requests
      rw [hplan']
      rfl
    have hin' : InPlace h' (i'.requests h'.byteOrder) s.kernel := by
      rw [hrs']
      have hi := hin hagree
      unfold Input.requests at hi
      rw [hplan] at hi
      exact hi.alike halike
    refine hin'.undisturbed hf wf' ⟨_, hplan'⟩ ?_
    rw [← hre.podInfo]
    exact hintf
  · have hversions := hu.sameVersions wf hs hre hnames hanon hleg
    refine ⟨?_, hversions⟩
    rw [hm.byteOrder]
    exact (hu.setsAgree wf' hleg).reordered hre hversions hplan

set_option maxRecDepth 100000 in
/-- The second run for two pods makes the steady state; the third lists pods and policies in the
other order and disturbs nothing. -/
theorem two_pods_are_steady : ∃ s₁ s₂,
    applyPolicyRulesForPodAndFamily Host.reliable (twoPodsInput false) (State.new Kernel.empty) =
      .ok () s₁ ∧
    applyPolicyRulesForPodAndFamily Host.reliable (twoPodsInput false) (State.new s₁.kernel) =
      .ok () s₂ ∧ Undisturbed Host.reliable (twoPodsInput true) s₂.kernel := by
  have hrun : (outcome Host.reliable (twoPodsInput false) Kernel.empty).any (fun s₁ =>
      (outcome Host.reliable (twoPodsInput false) s₁.kernel).isSome &&
        decide ((twoPodsInput false).SetsAgree Host.reliable.byteOrder ∧
          ∀ x ∈ (twoPodsInput false).requestedSets Host.reliable.byteOrder,
            s₁.kernel.hasSet x.1.table x.1.name = true)) = true := by
    decide +kernel
  obtain ⟨s₁, hs₁, hrun⟩ := (Option.any_eq_true _ _).1 hrun
  rw [Bool.and_eq_true, Option.isSome_iff_exists] at hrun
  obtain ⟨⟨s₂, hs₂⟩, hcond⟩ := hrun
  obtain ⟨hagree, hold⟩ := of_decide_eq_true hcond
  rw [outcome_eq_some] at hs₁ hs₂
  obtain ⟨-, -, -, wf, -⟩ := apply_ok Kernel.WF.empty hs₁
  have hinfo : (twoPodsInput false).podInfo.Plain := by
    intro intf hintf ip hip
    obtain rfl := List.mem_singleton.1 hintf
    cases hip
  have hsame : Host.reliable.SameMachine Host.reliable := ⟨rfl, rfl, rfl⟩
  obtain ⟨-, -, hother, -⟩ := steady_state_iff hsame (fun _ => rfl) wf hs₂ hold
  exact ⟨s₁, s₂, hs₁, hs₂, hother _ reordered_twoPodsInput hagree
    (reordered_twoPodsInput.sameVersions_of_plain (plain_twoPods false) hinfo)⟩

/-- A pod with an IPv4 address and one that is written as an IPv6 address. -/
def mappedPod : PolicyDeps where
  listPods _ := .ok [⟨str "default", str "a", []⟩]
  getNamespaceInfo _ := some []
  getPodInfo _ := some ⟨[{ netInterface (str "net1") with
    ips := [str "10.0.0.1", str "::ffff:10.0.0.2"] }]⟩
  mapRange _ _ _ keys := keys
  mapRange_perm _ _ _ keys := .refl keys

/-- A policy that lets the pod in. -/
def mappedPodInput : Input :=
  { twoPodsInput false with
    deps := mappedPod
    policyMap := ⟨[everyPodPolicy (str "p") isDNS1123Subdomain_p], by decide⟩ }

set_option maxRecDepth 100000 in
/-- The pod's addresses are two groups for one set: the second run needs no new set and empties it,
the third fills it again. -/
theorem mapped_address_is_never_steady : ∃ s₁ s₂ s₃,
    applyPolicyRulesForPodAndFamily Host.reliable mappedPodInput (State.new Kernel.empty) =
      .ok () s₁ ∧
    applyPolicyRulesForPodAndFamily Host.reliable mappedPodInput (State.new s₁.kernel) = .ok () s₂ ∧
    applyPolicyRulesForPodAndFamily Host.reliable mappedPodInput (State.new s₂.kernel) = .ok () s₃ ∧
    (∀ x ∈ mappedPodInput.requestedSets Host.reliable.byteOrder,
      s₁.kernel.hasSet x.1.table x.1.name = true) ∧
    KeysDistinct Host.reliable s₁.kernel s₂ ∧ KeysDistinct Host.reliable s₂.kernel s₃ ∧
    s₂.kernel.elements.length + 2 = s₃.kernel.elements.length := by
  have hrun : (outcome Host.reliable mappedPodInput Kernel.empty).any (fun s₁ =>
      (outcome Host.reliable mappedPodInput s₁.kernel).any fun s₂ =>
        (outcome Host.reliable mappedPodInput s₂.kernel).any fun s₃ =>
          decide ((∀ x ∈ mappedPodInput.requestedSets Host.reliable.byteOrder,
            s₁.kernel.hasSet x.1.table x.1.name = true) ∧
            KeysDistinct Host.reliable s₁.kernel s₂ ∧ KeysDistinct Host.reliable s₂.kernel s₃ ∧
            s₂.kernel.elements.length + 2 = s₃.kernel.elements.length)) = true := by
    decide +kernel
  obtain ⟨s₁, hs₁, hrun⟩ := (Option.any_eq_true _ _).1 hrun
  obtain ⟨s₂, hs₂, hrun⟩ := (Option.any_eq_true _ _).1 hrun
  obtain ⟨s₃, hs₃, hrun⟩ := (Option.any_eq_true _ _).1 hrun
  exact ⟨s₁, s₂, s₃, outcome_eq_some.1 hs₁, outcome_eq_some.1 hs₂, outcome_eq_some.1 hs₃,
    of_decide_eq_true hrun⟩

end MultiNetPolicy
