import MultiNetPolicy.Equiv.Busy
import MultiNetPolicy.Equiv.Sync

/-!
# Entry chains over histories

An entry chain starts with the jump to the common chain and ends with the drop; between them are the
interface rules and the checks of the policies of the last run (`EntryShape`).  Their order is that
of the history: rules that are found stay where they are, the others are appended.

* `Ran.entry`: an entry chain at the end of a run.
* `check_eq_of_jump_eq`: an interface rule tells the check of its policy, so a check is never newer
  than the interface rules of its policy.
-/

namespace MultiNetPolicy

open ByteString Reconcile

/-! ### The rules of an entry chain -/

section Rules

variable {bo : ByteOrder} {d : Direction} {podInfo : PodInfo} {policies : List InternalPolicy}
  {r : Rule}

theorem settled_commonRule (d : Direction) : (commonRule d).Settled filterTableName d.entry := by
  cases d <;> exact Rule.Built.settled (built_newRule (by rfl) (by rfl) (by rfl)) rfl (by rfl)

theorem settled_dropRule (d : Direction) : (dropRule d).Settled filterTableName d.entry :=
  Rule.Built.settled (Render.built_dropRemainingRule (by rfl)) rfl (by rfl)

theorem settled_of_mem_jumpRules {p : InternalPolicy} (hr : r ∈ jumpRules d podInfo p) :
    r.Settled filterTableName d.entry := by
  obtain ⟨i, -, rfl⟩ := List.mem_map.1 hr
  exact Rule.Built.settled (Render.built_podInterfaceRule (by rfl) _ _) rfl (by rfl)

/-- The rules of policies in an entry chain are listed as they are sent. -/
theorem settled_of_mem_midRules (hr : r ∈ midRules bo d podInfo policies) :
    r.Settled filterTableName d.entry := by
  obtain ⟨p, -, hr⟩ := List.mem_flatMap.1 hr
  rcases List.mem_append.1 hr with hr | hr
  · exact settled_of_mem_jumpRules hr
  · obtain rfl := List.mem_singleton.1 hr
    exact Rule.Built.settled (Render.built_generalMarkCheckRule (by rfl) _) rfl (by rfl)

/-- The interface rules and the checks start with a load, the other rules with their counter. -/
def Rule.isMiddle (r : Rule) : Bool :=
  match r.exprs with
  | .metaExpr _ _ _ :: _ => true
  | _ => false

/-- They are told from the first and the last rule. -/
theorem isMiddle_of_mem_midRules (hr : r ∈ midRules bo d podInfo policies) : r.isMiddle = true := by
  obtain ⟨p, -, hr⟩ := List.mem_flatMap.1 hr
  rcases List.mem_append.1 hr with hr | hr
  · obtain ⟨i, -, rfl⟩ := List.mem_map.1 hr
    rfl
  · obtain rfl := List.mem_singleton.1 hr
    rfl

theorem commonRule_not_isMiddle (d : Direction) : (commonRule d).isMiddle = false := by
  cases d <;> rfl

theorem dropRule_not_isMiddle (d : Direction) : (dropRule d).isMiddle = false := rfl

theorem commonRule_ne_dropRule (d : Direction) : commonRule d ≠ dropRule d := by
  intro h
  have hexprs := congrArg Rule.exprs h
  cases d <;> simp [commonRule, dropRule, Render.commonJumpRule, Render.dropRemainingRule,
    newRule] at hexprs

end Rules

/-! ### One run -/

/-- Some interface rule is new to an entry chain. -/
def newJump (d : Direction) (podInfo : PodInfo) (policies : List InternalPolicy)
    (entry : List Rule) : Bool :=
  policies.any fun p => (jumpRules d podInfo p).any fun j => decide (j ∉ entry)

section Run

variable {bo : ByteOrder} {h : Host} {i : Input} {k : Kernel} {s : State} {es : List Event}
  {d : Direction}

/-- Whether an interface rule is new, read off the chain. -/
theorem newJump_eq (k : Kernel) (d : Direction) (podInfo : PodInfo)
    (policies : List InternalPolicy) :
    (policies.any fun p => (jumpRules d podInfo p).any k.lacks) =
      newJump d podInfo policies (k.chainRules filterTableName d.entry) := by
  have hjumps : ∀ p : InternalPolicy, (jumpRules d podInfo p).any k.lacks =
      (jumpRules d podInfo p).any fun j =>
        decide (j ∉ k.chainRules filterTableName d.entry) := by
    intro p
    rw [Bool.eq_iff_iff, List.any_eq_true, List.any_eq_true]
    refine exists_congr fun j => and_congr_right fun hj => ?_
    rw [Kernel.lacks_eq (settled_of_mem_jumpRules hj)]
  unfold newJump
  simp only [hjumps]

theorem addedBy_dropCalls (ans : Rule → Bool) (d : Direction) (podInfo : PodInfo)
    (policies : List InternalPolicy) :
    addedBy .insertRule (dropCalls ans d podInfo policies) = [] ∧
      addedBy .addRule (dropCalls ans d podInfo policies) =
        if !policies.isEmpty && ((policies.any fun p => (jumpRules d podInfo p).any ans) ||
          ans (dropRule d)) then [dropRule d] else [] := by
  unfold dropCalls
  cases policies.isEmpty with
  | true => exact ⟨rfl, rfl⟩
  | false =>
    generalize (policies.any fun p => (jumpRules d podInfo p).any ans) = force
    cases force <;> cases hans : ans (dropRule d) <;> simp [addedBy]

/-- The drop is deleted when an interface rule is new. -/
theorem deletedBy_dropCalls (k : Kernel) (ans : Rule → Bool) (d : Direction) (podInfo : PodInfo)
    (policies : List InternalPolicy) :
    deletedBy k (dropCalls ans d podInfo policies) =
      if !policies.isEmpty && (policies.any fun p => (jumpRules d podInfo p).any ans)
        then ((k.findRule (dropRule d)).map Rule.handle).toList else [] := by
  unfold dropCalls
  cases policies.isEmpty with
  | true => rfl
  | false =>
    cases (policies.any fun p => (jumpRules d podInfo p).any ans) with
    | true => cases hf : k.findRule (dropRule d) <;> simp [deletedBy, hf]
    | false => simp [deletedBy]

/-- A forced update takes the drop out of the entry chain. -/
theorem inView_without_drop {k : Kernel} (wf : k.WF) (d : Direction) :
    inView filterTableName d.entry (k.rules.filter fun r =>
      !(((k.findRule (dropRule d)).map Rule.handle).toList).contains r.handle) =
      (k.chainRules filterTableName d.entry).erase (dropRule d) := by
  have hdrop := settled_dropRule d
  cases hf : k.findRule (dropRule d) with
  | none =>
    have hnot : dropRule d ∉ k.chainRules filterTableName d.entry := by
      have hlacks : k.lacks (dropRule d) = true := by
        unfold Kernel.lacks
        rw [hf]
        rfl
      rw [Kernel.lacks_eq hdrop, decide_eq_true_eq] at hlacks
      exact hlacks
    rw [List.erase_of_not_mem hnot, Kernel.chainRules_eq]
    exact congrArg (inView filterTableName d.entry) (List.filter_eq_self.2 fun r _ => rfl)
  | some e =>
    have hfound := Kernel.inView_filter_found wf hdrop.plain hf
    have hkeep : ∀ r : Rule, (!([e.handle].contains r.handle)) = (r.handle != e.handle) := by
      intro r
      rw [List.contains_cons, List.contains_nil, Bool.or_false, bne]
    simp only [Option.map_some, Option.toList_some, hkeep]
    exact hfound

/-- The calls of a direction, told by what is in its entry chain. -/
theorem Rendering.synced_entry (hr : Rendering bo i k es) :
    synced k es filterTableName d.entry =
      (if commonRule d ∈ k.chainRules filterTableName d.entry then [] else [commonRule d]) ++
      (if !(i.policiesIn d).isEmpty && newJump d i.sortedInfo (i.policiesIn d)
          (k.chainRules filterTableName d.entry)
        then (k.chainRules filterTableName d.entry).erase (dropRule d)
        else k.chainRules filterTableName d.entry) ++
      (midRules bo d i.sortedInfo (i.policiesIn d)).filter
        (· ∉ k.chainRules filterTableName d.entry) ++
      (if !(i.policiesIn d).isEmpty && (newJump d i.sortedInfo (i.policiesIn d)
          (k.chainRules filterTableName d.entry) ||
          decide (dropRule d ∉ k.chainRules filterTableName d.entry))
          then [dropRule d] else []) := by
  have hcommon := settled_commonRule d
  have hdrop := settled_dropRule d
  have hlacks := Kernel.lacks_eq (k := k) hcommon
  have hlacks' := Kernel.lacks_eq (k := k) hdrop
  have hmid := @map_filter_lacks k _ _ (midRules bo d i.sortedInfo (i.policiesIn d))
    fun r hr => settled_of_mem_midRules hr
  rw [synced_eq_callsIn hr.wf, Render.callsIn_entry hr.exec hr.answers d,
    addedBy_cons .insertRule, addedBy_cons .addRule, deletedBy_cons, addedBy_append,
    addedBy_append, deletedBy_append, (addedBy_appendCalls _ _).1, (addedBy_appendCalls _ _).2,
    deletedBy_appendCalls, (addedBy_dropCalls _ _ _ _).1, (addedBy_dropCalls _ _ _ _).2,
    deletedBy_dropCalls, newJump_eq, hlacks', List.append_nil]
  -- the common jump is inserted in front, when it is not there
  have hfirst : ((addedBy .insertRule [.rule (commonRule d) .insertRule false
      (k.lacks (commonRule d))]).map Rule.content).reverse =
      if commonRule d ∈ k.chainRules filterTableName d.entry then [] else [commonRule d] := by
    rw [hlacks]
    by_cases hmem : commonRule d ∈ k.chainRules filterTableName d.entry
    · simp [addedBy, hmem]
    · simp [addedBy, hmem, hcommon.content_eq]
  have hnone : addedBy .addRule [.rule (commonRule d) .insertRule false (k.lacks (commonRule d))] =
      [] := rfl
  have hkeep : deletedBy k [.rule (commonRule d) .insertRule false (k.lacks (commonRule d))] =
      [] := rfl
  rw [List.append_nil, hfirst, hnone, hkeep, List.nil_append, List.nil_append, List.nil_append,
    List.map_append, hmid, ← List.append_assoc]
  -- what is left is the old chain, without its drop when an interface rule is new
  congr 1
  · congr 2
    split
    · exact inView_without_drop hr.wf d
    · rw [Kernel.chainRules_eq]
      exact congrArg (inView filterTableName d.entry) (List.filter_eq_self.2 fun r _ => rfl)
  · split
    · rw [List.map_cons, hdrop.content_eq, List.map_nil]
    · rfl

/-- The rules that are asked for in an entry chain. -/
theorem Rendering.rulesOf_entry (hr : Rendering bo i k es) :
    rulesOf (callsIn filterTableName d.entry es) =
      commonRule d :: (midRules bo d i.sortedInfo (i.policiesIn d) ++
        if !(i.policiesIn d).isEmpty then [dropRule d] else []) := by
  rw [Render.callsIn_entry hr.exec hr.answers d, rulesOf_cons, rulesOf_append, rulesOf_appendCalls]
  unfold dropCalls
  cases (i.policiesIn d).isEmpty <;> rfl

/-- **An entry chain at the end of a run**, when a drop that is not moved has nothing behind it. -/
theorem Ran.entry (hr : Ran h i k s es) (hkeys : KeysTell h k s) {first body final : List Rule}
    (hold : k.chainRules filterTableName d.entry = first ++ body ++ final)
    (hfirst : first = [] ∨ first = [commonRule d]) (hfinal : final = [] ∨ final = [dropRule d])
    (hbody : ∀ x ∈ body, x.isMiddle = true ∧ x.Normal)
    (hforce : final = [dropRule d] → newJump d i.sortedInfo (i.policiesIn d)
      (k.chainRules filterTableName d.entry) = false →
      ∀ x ∈ midRules h.byteOrder d i.sortedInfo (i.policiesIn d), x ∈ body) :
    s.kernel.chainRules filterTableName d.entry =
      commonRule d :: (reconcile body (midRules h.byteOrder d i.sortedInfo (i.policiesIn d)) ++
        if !(i.policiesIn d).isEmpty then [dropRule d] else []) := by
  -- the rules of policies are neither the first nor the last one
  have hmiddle : ∀ {r : Rule}, r.isMiddle = true → r ≠ commonRule d ∧ r ≠ dropRule d := by
    intro r hr
    constructor
    · rintro rfl
      rw [commonRule_not_isMiddle] at hr
      cases hr
    · rintro rfl
      rw [dropRule_not_isMiddle] at hr
      cases hr
  have hnormal : ∀ x ∈ k.chainRules filterTableName d.entry, x.Normal := by
    intro x hx
    rw [hold, List.mem_append, List.mem_append] at hx
    rcases hx with (hx | hx) | hx
    · rcases hfirst with rfl | rfl
      · cases hx
      · rw [List.mem_singleton.1 hx]
        exact (settled_commonRule d).normal
    · exact (hbody x hx).2
    · rcases hfinal with rfl | rfl
      · cases hx
      · rw [List.mem_singleton.1 hx]
        exact (settled_dropRule d).normal
  have hsettled : ∀ r ∈ rulesOf (callsIn filterTableName d.entry es),
      r.Settled filterTableName d.entry := by
    intro r hmem
    rw [hr.rulesOf_entry, List.mem_cons, List.mem_append] at hmem
    rcases hmem with rfl | hmem | hmem
    · exact settled_commonRule d
    · exact settled_of_mem_midRules hmem
    · split at hmem
      · rw [List.mem_singleton.1 hmem]
        exact settled_dropRule d
      · cases hmem
  rw [hr.chainRules hkeys hsettled hnormal, hr.rulesOf_entry, hr.synced_entry]
  -- the rest is about lists with a fixed first and last element
  have hframed := @framed_eq _ _ (commonRule d) (dropRule d) first body
    (midRules h.byteOrder d i.sortedInfo (i.policiesIn d)) final
    (newJump d i.sortedInfo (i.policiesIn d) (k.chainRules filterTableName d.entry))
    (!(i.policiesIn d).isEmpty) (commonRule_ne_dropRule d)
    ⟨fun hmem => (hmiddle (hbody _ hmem).1).1 rfl, fun hmem => (hmiddle (hbody _ hmem).1).2 rfl⟩
    ⟨fun hmem => (hmiddle (isMiddle_of_mem_midRules hmem)).1 rfl,
      fun hmem => (hmiddle (isMiddle_of_mem_midRules hmem)).2 rfl⟩ hfirst hfinal
    (fun hempty => by
      rw [Bool.not_eq_false', List.isEmpty_iff] at hempty
      rw [hempty]
      rfl)
    fun hdrop _ hnew => hforce hdrop hnew
  unfold framed at hframed
  rw [← hold] at hframed
  exact hframed

end Run

/-! ### Interface rules and checks -/

/-- Comments are equal up to where they are cut. -/
theorem take_eq_of_userDataComment_eq {a b : Str} (h : userDataComment a = userDataComment b) :
    a.take userDataCommentMaxLen = b.take userDataCommentMaxLen := by
  unfold userDataComment appendComment at h
  rw [List.cons_append, List.cons_append, List.cons_append, List.cons_append, List.cons.injEq,
    List.cons.injEq] at h
  exact List.append_cancel_right h.2.2

/-- The comma behind the name in a comment tells where the name ends. -/
theorem comma_not_mem_policyNamespacedName (p : MultiNetworkPolicy) :
    0x2c ∉ policyNamespacedName p := by
  unfold policyNamespacedName
  rw [List.mem_append, List.mem_append]
  rintro ((h | h) | h)
  · exact absurd (p.isNameChar_of_mem_namespace h) (by decide)
  · exact absurd h (by decide)
  · exact absurd (p.isNameChar_of_mem_name h) (by decide)

/-- **An interface rule tells the check of its policy**, and the chain that it jumps to.  The name
of the policy is the first part of both comments, up to the same comma or cut at the same place. -/
theorem check_eq_of_jump_eq {bo : ByteOrder} {d : Direction} {podInfo podInfo' : PodInfo}
    {p p' : InternalPolicy} {j : Rule} (hj : j ∈ jumpRules d podInfo p)
    (hj' : j ∈ jumpRules d podInfo' p') :
    checkRule bo d p = checkRule bo d p' ∧
      chainNameOf d p.policy .policy = chainNameOf d p'.policy .policy := by
  obtain ⟨x, -, rfl⟩ := List.mem_map.1 hj
  obtain ⟨x', -, heq⟩ := List.mem_map.1 hj'
  simp only [Render.podInterfaceRule, newRule, Rule.mk.injEq, List.cons.injEq, Expr.verdict.injEq,
    true_and, and_true] at heq
  obtain ⟨hcomment, -, htarget⟩ := heq
  refine ⟨?_, htarget.symm⟩
  -- comments may be cut, so only what both keep can be compared
  have hcut := take_eq_of_userDataComment_eq hcomment
  -- the name of the policy ends at the first comma
  have hcomma : ∀ q : MultiNetworkPolicy, 0x2c ∉ str "policy:" ++ policyNamespacedName q := by
    intro q hmem
    rcases List.mem_append.1 hmem with hmem | hmem
    · exact absurd hmem (by decide)
    · exact comma_not_mem_policyNamespacedName q hmem
  have hsplit : ∀ (q : MultiNetworkPolicy) (text : Str),
      str "policy:" ++ (policyNamespacedName q ++ (str ", name:" ++ text)) =
        str "policy:" ++ policyNamespacedName q ++ 0x2c :: (str " name:" ++ text) :=
          fun q text => by
    rw [← List.append_assoc]
    rfl
  simp only [List.append_assoc] at hcut
  rw [hsplit, hsplit] at hcut
  have hcheck := take_append_sep (hcomma _) (hcomma _) hcut (str " check mark 0x30000")
  unfold checkRule Render.generalMarkCheckRule newRule
  rw [Rule.mk.injEq]
  refine ⟨rfl, rfl, rfl, ?_, rfl⟩
  exact congrArg appendComment hcheck.symm

/-! ### The shape of an entry chain -/

/-- A policy that is applied is for an interface of the pod. -/
theorem jumpRules_ne_nil {i : Input} {d : Direction} {p : InternalPolicy}
    (hp : p ∈ i.policiesIn d) : ∃ j, j ∈ jumpRules d i.sortedInfo p := by
  have happ : p ∈ i.applicablePolicies := by
    cases d with
    | ingress => exact List.mem_of_mem_filter ((List.mem_insertionSort _).1 hp)
    | egress => exact List.mem_of_mem_filter ((List.mem_insertionSort _).1 hp)
  obtain ⟨policy, -, happ⟩ := List.mem_filterMap.1 happ
  unfold applicable at happ
  split at happ
  · split at happ
    · cases happ
    · rename_i annot _
      simp only [Option.ite_none_right_eq_some, Option.some.injEq] at happ
      obtain ⟨hcheck, rfl⟩ := happ
      obtain ⟨x, hx, hnet⟩ := List.any_eq_true.1 hcheck
      exact ⟨_, List.mem_map_of_mem (List.mem_filter.2 ⟨hx, hnet⟩)⟩
  · cases happ

/-- Interface rules compare the interface, checks compute with the mark. -/
theorem checkRule_not_mem_jumpRules {bo : ByteOrder} {d : Direction} {podInfo : PodInfo}
    (p p' : InternalPolicy) : checkRule bo d p ∉ jumpRules d podInfo p' := by
  intro hmem
  obtain ⟨x, -, heq⟩ := List.mem_map.1 hmem
  have hexprs := congrArg Rule.exprs heq
  simp [checkRule, Render.generalMarkCheckRule, Render.podInterfaceRule, newRule, markCheck]
    at hexprs

/-- The rules between the first and the last one. -/
theorem mem_midRules {bo : ByteOrder} {d : Direction} {podInfo : PodInfo}
    {policies : List InternalPolicy} {r : Rule} : r ∈ midRules bo d podInfo policies ↔
      ∃ p ∈ policies, r ∈ jumpRules d podInfo p ∨ r = checkRule bo d p := by
  unfold midRules
  simp only [List.mem_flatMap, List.mem_append, List.mem_singleton]

/-- The rules at the end of an entry chain. -/
def endRules (d : Direction) (policies : List InternalPolicy) : List Rule :=
  if !policies.isEmpty then [dropRule d] else []

theorem endRules_cases (d : Direction) (policies : List InternalPolicy) :
    endRules d policies = [] ∨ endRules d policies = [dropRule d] := by
  unfold endRules
  cases policies.isEmpty
  · exact .inr rfl
  · exact .inl rfl

/-- An entry chain with the rules of a run between the common jump and the drop, in some order. -/
structure EntryShape (bo : ByteOrder) (d : Direction) (k : Kernel) (i : Input)
    (body : List Rule) : Prop where
  chain : k.chainRules filterTableName d.entry =
    commonRule d :: (body ++ endRules d (i.policiesIn d))
  mem : ∀ x, x ∈ body ↔ x ∈ midRules bo d i.sortedInfo (i.policiesIn d)

/-- What an entry chain looks like in a history. -/
def EntryInv (bo : ByteOrder) (d : Direction) (k : Kernel) (last : Option Input) : Prop :=
  match last with
  | none => k.chainRules filterTableName d.entry = []
  | some i => ∃ body, EntryShape bo d k i body

section Shape

variable {bo : ByteOrder} {h : Host} {i i₀ : Input} {k : Kernel} {s : State} {es : List Event}
  {d : Direction} {body : List Rule}

/-- What is between the first and the last rule. -/
theorem EntryShape.mem_body (hs : EntryShape bo d k i body) {r : Rule} (hr : r.isMiddle = true) :
    r ∈ k.chainRules filterTableName d.entry ↔ r ∈ body := by
  have hne : r ≠ commonRule d := by
    rintro rfl
    rw [commonRule_not_isMiddle] at hr
    cases hr
  have hend : r ∉ endRules d (i.policiesIn d) := by
    intro hmem
    rcases endRules_cases d (i.policiesIn d) with h | h <;> rw [h] at hmem
    · cases hmem
    · rw [List.mem_singleton.1 hmem, dropRule_not_isMiddle] at hr
      cases hr
  rw [hs.chain, List.mem_cons, List.mem_append]
  simp [hne, hend]

/-- When no interface rule is new, no check is. -/
theorem EntryShape.mem_of_newJump_eq_false (hs : EntryShape bo d k i₀ body)
    (hnew : newJump d i.sortedInfo (i.policiesIn d) (k.chainRules filterTableName d.entry) = false)
    {x : Rule} (hx : x ∈ midRules bo d i.sortedInfo (i.policiesIn d)) : x ∈ body := by
  have hjumps : ∀ p ∈ i.policiesIn d, ∀ j ∈ jumpRules d i.sortedInfo p, j ∈ body := by
    intro p hp j hj
    have hmem : j ∈ midRules bo d i.sortedInfo (i.policiesIn d) :=
      mem_midRules.2 ⟨p, hp, .inl hj⟩
    rw [← hs.mem_body (isMiddle_of_mem_midRules hmem)]
    unfold newJump at hnew
    rw [List.any_eq_false] at hnew
    have hp' := hnew p hp
    rw [Bool.not_eq_true, List.any_eq_false] at hp'
    simpa using hp' j hj
  obtain ⟨p, hp, hx⟩ := mem_midRules.1 hx
  rcases hx with hx | rfl
  · exact hjumps p hp x hx
  · -- some interface rule of the policy is there, with the check of its policy
    obtain ⟨j, hj⟩ := jumpRules_ne_nil hp
    obtain ⟨p₀, hp₀, hj₀⟩ := mem_midRules.1 ((hs.mem j).1 (hjumps p hp j hj))
    rcases hj₀ with hj₀ | rfl
    · have hcheck : checkRule bo d p = checkRule bo d p₀ := (check_eq_of_jump_eq hj hj₀).1
      rw [hcheck, hs.mem]
      exact mem_midRules.2 ⟨p₀, hp₀, .inr rfl⟩
    · exact absurd hj (checkRule_not_mem_jumpRules p₀ p)

/-- **One run over an entry chain.** -/
theorem Ran.entryShape (hr : Ran h i k s es) (hkeys : KeysTell h k s)
    (hs : EntryShape h.byteOrder d k i₀ body) :
    EntryShape h.byteOrder d s.kernel i
      (reconcile body (midRules h.byteOrder d i.sortedInfo (i.policiesIn d))) := by
  refine ⟨?_, fun x => mem_reconcile⟩
  have hold : k.chainRules filterTableName d.entry =
      [commonRule d] ++ body ++ endRules d (i₀.policiesIn d) := hs.chain
  refine hr.entry hkeys hold (.inr rfl) (endRules_cases _ _) (fun x hx => ?_) fun _ hnew x hx => ?_
  · have hmid := (hs.mem x).1 hx
    exact ⟨isMiddle_of_mem_midRules hmid, (settled_of_mem_midRules hmid).normal⟩
  · exact hs.mem_of_newJump_eq_false hnew hx

/-- An entry chain behind a first run. -/
theorem Ran.entryShape_start (hr : Ran h i k s es) (hkeys : KeysTell h k s)
    (hs : k.chainRules filterTableName d.entry = []) :
    EntryShape h.byteOrder d s.kernel i
      (midRules h.byteOrder d i.sortedInfo (i.policiesIn d)) := by
  refine ⟨?_, fun x => .rfl⟩
  have hold : k.chainRules filterTableName d.entry = [] ++ [] ++ [] := hs
  have hchain := hr.entry hkeys hold (.inl rfl) (.inl rfl) (by simp) (by simp)
  rwa [reconcile_nil_left] at hchain

/-- The shape of an entry chain is kept by every run. -/
theorem EntryInv.run {last : Option Input} (hi : EntryInv h.byteOrder d k last)
    (hr : Ran h i k s es) (hkeys : KeysTell h k s) : EntryInv h.byteOrder d s.kernel (some i) := by
  cases last with
  | none => exact ⟨_, hr.entryShape_start hkeys hi⟩
  | some i₀ =>
    obtain ⟨body, hs⟩ := hi
    exact ⟨_, hr.entryShape hkeys hs⟩

end Shape

/-! ### The drop -/

/-- A rule that ends with a drop. -/
def Rule.drops (r : Rule) : Prop := .verdict .drop [] ∈ r.exprs

instance (r : Rule) : Decidable r.drops :=
  inferInstanceAs (Decidable (Expr.verdict .drop [] ∈ r.exprs))

theorem not_drops_commonRule (d : Direction) : ¬(commonRule d).drops := by
  cases d <;> decide

theorem not_drops_of_mem_midRules {bo : ByteOrder} {d : Direction} {podInfo : PodInfo}
    {policies : List InternalPolicy} {r : Rule} (hr : r ∈ midRules bo d podInfo policies) :
    ¬r.drops := by
  obtain ⟨p, -, hr⟩ := mem_midRules.1 hr
  rcases hr with hr | rfl
  · obtain ⟨x, -, rfl⟩ := List.mem_map.1 hr
    simp [Rule.drops, Render.podInterfaceRule, newRule]
  · simp [Rule.drops, checkRule, Render.generalMarkCheckRule, newRule, markCheck]

/-- **Entry chains over a history.** -/
theorem Runs.entryInv {bo : ByteOrder} {cond : Host → Input → Kernel → State → Prop} {k : Kernel}
    {last : Option Input} (hr : Runs bo cond k last)
    (hcond : ∀ {h i k s}, cond h i k s → KeysTell h k s) (d : Direction) :
    EntryInv bo d k last := by
  refine hr.invariant (fun _ hempty => hempty.chainRules (by decide) _) ?_
  rintro h i k last s wf rfl hs hc hinv
  obtain ⟨es, hran⟩ := exists_ran wf hs
  exact hinv.run hran (hcond hc)

theorem isDNS1123Subdomain_yz1bh5c : isDNS1123Subdomain (str "yz1bh5c") = true := by decide

/-- A pod with an egress policy without rules, whose check has the key of the ingress drop. -/
def collidingEgressInput : Input :=
  podInput [str "net1"] (onePolicy
    { ingressPolicy (str "yz1bh5c") isDNS1123Subdomain_yz1bh5c (str "net1") [] with
      ingress := none
      egress := some [] })

end MultiNetPolicy
