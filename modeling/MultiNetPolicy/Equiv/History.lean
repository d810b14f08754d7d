import MultiNetPolicy.Equiv.Run

/-!
# Histories of runs

A history starts from a ruleset whose managed tables are empty and is a sequence of successful runs
of `ApplyPolicyRulesForPodAndFamily`, each with its own input and its own host: listing requests may
fail in one run and not in the next, and the encodings may change with a restart of the daemon.
Only the byte order stays.

`Runs.invariant` is the induction: what holds at the start and is kept by every run holds in every
state reached, together with the well-formedness of the ruleset.
-/

namespace MultiNetPolicy

open ByteString

/-- The daemon's tables hold nothing. -/
structure Kernel.ManagedEmpty (k : Kernel) : Prop where
  chains : ∀ c ∈ k.chains, isManaged c.table = false
  rules : ∀ r ∈ k.rules, isManaged r.table = false
  sets : ∀ s ∈ k.sets, isManaged s.table = false
  elements : ∀ e ∈ k.elements, isManaged e.table = false

theorem Kernel.ManagedEmpty.empty : Kernel.empty.ManagedEmpty :=
  ⟨by simp [Kernel.empty], by simp [Kernel.empty], by simp [Kernel.empty], by simp [Kernel.empty]⟩

/-- There are no rules to begin with. -/
theorem Kernel.ManagedEmpty.chainRules {k : Kernel} (hk : k.ManagedEmpty) {t : Str}
    (ht : isManaged t = true) (c : Str) : k.chainRules t c = [] := by
  have hnone : k.rules.filter (Rule.inChain t c) = [] := by
    rw [List.filter_eq_nil_iff]
    intro r hr hc
    have hfalse := hk.rules r hr
    rw [(Rule.inChain_iff.1 hc).1, ht] at hfalse
    cases hfalse
  rw [Kernel.chainRules_eq, inView, hnone, List.map_nil]

/-- `Runs bo cond k last`: a history whose steps all satisfy `cond` (of the host, the input, the
ruleset before and the state after) ends in the ruleset `k`; `last` is the input of its last
run. -/
inductive Runs (bo : ByteOrder) (cond : Host → Input → Kernel → State → Prop) :
    Kernel → Option Input → Prop where
  | start {k} : k.WF → k.ManagedEmpty → Runs bo cond k none
  | run {h i k last s} : Runs bo cond k last → h.byteOrder = bo →
      applyPolicyRulesForPodAndFamily h i (State.new k) = .ok () s → cond h i k s →
      Runs bo cond s.kernel (some i)

namespace Runs

variable {bo : ByteOrder} {cond : Host → Input → Kernel → State → Prop} {k : Kernel}
  {last : Option Input}

/-- Rulesets of a history are well-formed. -/
theorem wf (hr : Runs bo cond k last) : k.WF := by
  induction hr with
  | start hwf _ => exact hwf
  | run _ _ hs _ ih =>
    obtain ⟨-, -, -, hwf, -⟩ := apply_ok ih hs
    exact hwf

/-- **Induction over a history.** -/
theorem invariant {I : Kernel → Option Input → Prop} (hr : Runs bo cond k last)
    (hstart : ∀ {k : Kernel}, k.WF → k.ManagedEmpty → I k none)
    (hstep : ∀ {h : Host} {i : Input} {k : Kernel} {last : Option Input} {s : State}, k.WF →
      h.byteOrder = bo → applyPolicyRulesForPodAndFamily h i (State.new k) = .ok () s →
      cond h i k s → I k last → I s.kernel (some i)) : I k last := by
  induction hr with
  | start hwf hempty => exact hstart hwf hempty
  | run hk hbo hs hc ih => exact hstep hk.wf hbo hs hc ih

end Runs

end MultiNetPolicy
