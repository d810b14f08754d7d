import MultiNetPolicy.Equiv.Commit

/-!
# What the cleanup deletes

The loops of the cleanup only queue deletions (`foldlM_queues`), and a flush that is needed is
performed.  So after `cleanupRules` the rules of a table are those whose key was remembered
(`cleanupRules_ok`), and `cleanupChains` deletes chains without rules only: `cleanup_ok`.
-/

namespace MultiNetPolicy

open ByteString StateExcept

/-! ### Batches of deletions -/

/-- The message deletes the rule. -/
def Op.deletes (r : Rule) : Op → Bool
  | .delRule t c n => r.inChain t c && r.handle == n
  | .delChain t c => r.inChain t c
  | _ => false

def Op.isDelete : Op → Bool
  | .delRule _ _ _ => true
  | .delChain _ _ => true
  | .delSet _ _ => true
  | _ => false

/-- The message deletes the set. -/
def Op.deletesSet (x : NftSet) : Op → Bool
  | .delSet t n => x.table == t && x.name == n
  | _ => false

/-- The message deletes the chain. -/
def Op.deletesChain (x : Chain) : Op → Bool
  | .delChain t n => x.table == t && x.name == n
  | _ => false

namespace Kernel

/-- A batch of deletions keeps what none of its messages deletes. -/
theorem commit_filter {α : Type} (part : Kernel → List α) (deletes : α → Op → Bool)
    (happly : ∀ (k : Kernel) (op : Op), op.isDelete = true →
      part (k.apply op) = (part k).filter fun x => !deletes x op) :
    ∀ {ops : List Op}, (∀ op ∈ ops, op.isDelete = true) → ∀ k : Kernel,
      part (k.commit ops) = (part k).filter fun x => !ops.any (deletes x)
  | [], _, k => by simp
  | op :: ops, h, k => by
    rw [commit_cons, commit_filter part deletes happly fun o ho => h o (List.mem_cons_of_mem _ ho),
      happly k op (h op (List.mem_cons_self ..)), List.filter_filter]
    refine List.filter_congr fun x _ => ?_
    rw [List.any_cons, Bool.not_or, Bool.and_comm]

theorem filter_not_false {α : Type} (l : List α) : l = l.filter fun _ => !false :=
  (List.filter_eq_self.2 fun _ _ => rfl).symm

/-- The rules that a batch of deletions leaves. -/
theorem commit_deletes {ops : List Op} (h : ∀ op ∈ ops, op.isDelete = true) (k : Kernel) :
    (k.commit ops).rules = k.rules.filter fun r => !ops.any (Op.deletes r) := by
  refine commit_filter Kernel.rules Op.deletes (fun k op hop => ?_) h k
  cases op <;> first | rfl | exact filter_not_false _ | cases hop

/-- The sets that it leaves. -/
theorem commit_deletes_sets {ops : List Op} (h : ∀ op ∈ ops, op.isDelete = true) (k : Kernel) :
    (k.commit ops).sets = k.sets.filter fun x => !ops.any (Op.deletesSet x) := by
  refine commit_filter Kernel.sets Op.deletesSet (fun k op hop => ?_) h k
  cases op <;> first | rfl | exact filter_not_false _ | cases hop

/-- The chains that it leaves. -/
theorem commit_deletes_chains {ops : List Op} (h : ∀ op ∈ ops, op.isDelete = true) (k : Kernel) :
    (k.commit ops).chains = k.chains.filter fun c => !ops.any (Op.deletesChain c) := by
  refine commit_filter Kernel.chains Op.deletesChain (fun k op hop => ?_) h k
  cases op <;> first | rfl | exact filter_not_false _ | cases hop

end Kernel

/-! ### Loops that queue -/

/-- A loop whose rounds queue messages that depend on the committed ruleset and the tracking maps
only, and remember whether there was one. -/
theorem foldlM_queues {α : Type} {f : Bool → α → M Bool} {g : State → α → List Op}
    (hg : ∀ s q m a, g { s with queries := q, messages := m } a = g s a)
    (hf : ∀ b a s b' s', f b a s = .ok b' s' →
      (∃ q, s' = { s with queries := q, messages := s.messages ++ g s a }) ∧
        b' = (b || !(g s a).isEmpty)) :
    ∀ (l : List α) (b : Bool) (s : State) (b' : Bool) (s' : State), l.foldlM f b s = .ok b' s' →
      (∃ q, s' = { s with queries := q, messages := s.messages ++ l.flatMap (g s) }) ∧
        b' = (b || !(l.flatMap (g s)).isEmpty)
  | [], b, s, b', s', h => by
    obtain ⟨rfl, rfl⟩ := pure_eq_ok.1 h
    exact ⟨⟨s.queries, by simp⟩, by simp⟩
  | a :: l, b, s, b', s', h => by
    rw [List.foldlM_cons] at h
    obtain ⟨b₁, s₁, h₁, h₂⟩ := bind_eq_ok.1 h
    obtain ⟨⟨q₁, rfl⟩, rfl⟩ := hf _ _ _ _ _ h₁
    obtain ⟨⟨q₂, rfl⟩, rfl⟩ := foldlM_queues hg hf l _ _ _ _ h₂
    have hg' : g { s with queries := q₁, messages := s.messages ++ g s a } = g s :=
      funext fun x => hg s _ _ x
    rw [hg']
    refine ⟨⟨q₂, by simp⟩, ?_⟩
    rw [List.flatMap_cons]
    cases g s a <;> simp

/-- A flush of everything that is queued, when there is something. -/
theorem flush_if_eq_ok {h : Host} {b : Bool} {c : Str} {s s' : State} {u : Unit}
    (hb : b = !s.messages.isEmpty)
    (hs : (if b = true then wrapErr c (Conn.flush h) else pure ()) s = .ok u s') :
    s.kernel.admits s.messages ∧
      s' = { s with kernel := s.kernel.commit s.messages, messages := [] } := by
  cases hm : s.messages with
  | nil =>
    rw [hm] at hb
    rw [if_neg (by simp [hb])] at hs
    obtain ⟨-, rfl⟩ := pure_eq_ok.1 hs
    refine ⟨rfl, ?_⟩
    rw [Kernel.commit_nil, ← hm]
  | cons op ops =>
    rw [hm] at hb
    rw [if_pos (by simp [hb]), wrapErr_eq_ok] at hs
    have := flush_eq_ok hs
    rwa [hm] at this

/-! ### Rules and sets -/

/-- The deletions of the rules whose key was not remembered. -/
def staleRuleOps (h : Host) (s : State) (rules : List Rule) : List Op :=
  (rules.filter fun r => !s.rules.contains (hashRule h r)).map fun r =>
    .delRule r.table r.chain r.handle

/-- The deletions of a chain's rules by `cleanupRules`. -/
def staleChainOps (h : Host) (table : Str) (s : State) (chain : Chain) : List Op :=
  if chain.table = table then staleRuleOps h s (s.kernel.getRules table chain.name) else []

/-- The deletion of a set by `cleanupRules`. -/
def staleSetOps (s : State) (set : NftSet) : List Op :=
  if !s.sets.contains (objectKey set.table set.name) && !set.anonymous then
    [.delSet set.table set.name] else []

/-- A rule whose key is not in the map is deleted. -/
theorem cleanupRule_queues {h : Host} {b b' : Bool} {r : Rule} {s s' : State}
    (hs : cleanupRule h b r s = .ok b' s') :
    (∃ q, s' = { s with queries := q, messages := s.messages ++ staleRuleOps h s [r] }) ∧
      b' = (b || !(staleRuleOps h s [r]).isEmpty) := by
  unfold cleanupRule at hs
  simp only [bind_eq_ok, get_eq_ok] at hs
  obtain ⟨_, _, ⟨rfl, rfl⟩, hs⟩ := hs
  by_cases hc : s.rules.contains (hashRule h r) = true
  · rw [if_pos hc] at hs
    obtain ⟨rfl, rfl⟩ := pure_eq_ok.1 hs
    have hnil : staleRuleOps h s [r] = [] := by simpa [staleRuleOps] using hc
    exact ⟨⟨s.queries, by simp [hnil]⟩, by simp [hnil]⟩
  · rw [if_neg hc] at hs
    simp only [bind_eq_ok, orPanic_eq_ok, Conn.delRule, Conn.queue, modify_eq_ok,
      pure_eq_ok] at hs
    obtain ⟨_, _, ⟨-, rfl⟩, _, _, rfl, rfl, rfl⟩ := hs
    have hone : staleRuleOps h s [r] = [.delRule r.table r.chain r.handle] := by
      unfold staleRuleOps
      rw [List.filter_cons_of_pos (by simpa using hc)]
      rfl
    exact ⟨⟨s.queries, by simp [hone]⟩, by simp [hone]⟩

theorem flatMap_staleRuleOps (h : Host) (s : State) (rules : List Rule) :
    rules.flatMap (fun r => staleRuleOps h s [r]) = staleRuleOps h s rules := by
  induction rules with
  | nil => rfl
  | cons r rs ih =>
    rw [List.flatMap_cons, ih]
    unfold staleRuleOps
    rw [← List.map_append, ← List.filter_append, List.singleton_append]

/-- The stale rules of a chain. -/
theorem cleanupChainRules_queues {h : Host} {table : Str} {b b' : Bool} {c : Chain} {s s' : State}
    (hs : cleanupChainRules h table b c s = .ok b' s') :
    (∃ q, s' = { s with queries := q, messages := s.messages ++ staleChainOps h table s c }) ∧
      b' = (b || !(staleChainOps h table s c).isEmpty) := by
  unfold cleanupChainRules at hs
  unfold staleChainOps
  split at hs
  · rename_i hc
    simp only [bind_eq_ok, wrapErr_eq_ok, Conn.getRules, query_eq_ok] at hs
    obtain ⟨_, _, ⟨-, rfl, rfl⟩, hs⟩ := hs
    have hfold := foldlM_queues (g := fun s r => staleRuleOps h s [r]) (fun _ _ _ _ => rfl)
      (fun _ _ _ _ _ h => cleanupRule_queues h) _ _ _ _ _ hs
    rw [flatMap_staleRuleOps] at hfold
    rw [if_pos hc]
    exact hfold
  · rename_i hc
    obtain ⟨rfl, rfl⟩ := pure_eq_ok.1 hs
    rw [if_neg hc]
    exact ⟨⟨s.queries, by simp⟩, by simp⟩

/-- A set whose key is not in the map is deleted. -/
theorem cleanupSet_queues {b b' : Bool} {set : NftSet} {s s' : State}
    (hs : cleanupSet b set s = .ok b' s') :
    (∃ q, s' = { s with queries := q, messages := s.messages ++ staleSetOps s set }) ∧
      b' = (b || !(staleSetOps s set).isEmpty) := by
  unfold cleanupSet at hs
  unfold staleSetOps
  simp only [bind_eq_ok, get_eq_ok] at hs
  obtain ⟨_, _, ⟨rfl, rfl⟩, hs⟩ := hs
  split at hs
  · rename_i hc
    simp only [bind_eq_ok, Conn.delSet, Conn.queue, modify_eq_ok, pure_eq_ok] at hs
    obtain ⟨_, _, rfl, rfl, rfl⟩ := hs
    rw [if_pos hc]
    exact ⟨⟨s.queries, by simp⟩, by simp⟩
  · rename_i hc
    obtain ⟨rfl, rfl⟩ := pure_eq_ok.1 hs
    rw [if_neg hc]
    exact ⟨⟨s.queries, by simp⟩, by simp⟩

/-- What a step of the cleanup leaves alone. -/
structure Cleaned (s s' : State) : Prop where
  wf : s.kernel.WF → s'.kernel.WF
  messages : s'.messages = []
  rules : s'.rules = s.rules
  sets : s'.sets = s.sets
  chains : s'.chains = s.chains
  requested : s'.requested = s.requested

theorem Cleaned.trans {s₁ s₂ s₃ : State} (h₁ : Cleaned s₁ s₂) (h₂ : Cleaned s₂ s₃) :
    Cleaned s₁ s₃ where
  wf := fun w => h₂.wf (h₁.wf w)
  messages := h₂.messages
  rules := h₂.rules.trans h₁.rules
  sets := h₂.sets.trans h₁.sets
  chains := h₂.chains.trans h₁.chains
  requested := h₂.requested.trans h₁.requested

/-- A rule is deleted by the stale deletions of its table when its key was not remembered. -/
theorem any_staleChainOps {h : Host} {table : Str} {s : State} (wf : s.kernel.WF) {r : Rule}
    (hr : r ∈ s.kernel.rules) :
    (s.kernel.chains.flatMap (staleChainOps h table s)).any (Op.deletes r) = true ↔
      r.table = table ∧ hashRule h r.listed ∉ s.rules := by
  simp only [List.any_flatMap, List.any_eq_true]
  constructor
  · rintro ⟨c, -, op, hop, hdel⟩
    unfold staleChainOps at hop
    split at hop
    · obtain ⟨x, hx, rfl⟩ := List.mem_map.1 hop
      obtain ⟨hx, hkey⟩ := List.mem_filter.1 hx
      obtain ⟨y, hy, rfl⟩ := List.mem_map.1 hx
      obtain ⟨hy, hyc⟩ := List.mem_filter.1 hy
      unfold Op.deletes at hdel
      rw [Bool.and_eq_true, beq_iff_eq] at hdel
      -- handles are unique, so the deletion is of this rule
      obtain rfl : r = y := List.inj_on_of_nodup_map wf.handles_nodup hr hy hdel.2
      exact ⟨(Rule.inChain_iff.1 hyc).1, by simpa using hkey⟩
    · cases hop
  · rintro ⟨rfl, hkey⟩
    obtain ⟨c, hc, hct, hcn⟩ := Kernel.hasChain_iff.1 (wf.chain_exists r hr)
    refine ⟨c, hc, .delRule r.table r.chain r.handle, ?_, by simp [Op.deletes, Rule.inChain]⟩
    unfold staleChainOps
    rw [if_pos hct]
    refine List.mem_map.2 ⟨r.listed, List.mem_filter.2 ⟨List.mem_map.2 ⟨r, ?_, rfl⟩, ?_⟩, rfl⟩
    · exact List.mem_filter.2 ⟨hr, by simp [Rule.inChain, hcn]⟩
    · simpa using hkey

/-- The batch of `cleanupRules`. -/
def staleOps (h : Host) (table : Str) (s : State) : List Op :=
  s.kernel.chains.flatMap (staleChainOps h table s) ++
    (s.kernel.sets.filter fun x => x.table == table).flatMap (staleSetOps s)

/-- Only rules of the table are deleted. -/
theorem mem_staleChainOps {h : Host} {table : Str} {s : State} {op : Op}
    (hop : op ∈ s.kernel.chains.flatMap (staleChainOps h table s)) :
    ∃ c n, op = .delRule table c n := by
  obtain ⟨c, -, hop⟩ := List.mem_flatMap.1 hop
  unfold staleChainOps at hop
  split at hop
  · obtain ⟨r, hr, rfl⟩ := List.mem_map.1 hop
    obtain ⟨x, hx, rfl⟩ := List.mem_map.1 (List.mem_filter.1 hr).1
    refine ⟨x.chain, x.handle, ?_⟩
    rw [← (Rule.inChain_iff.1 (List.mem_filter.1 hx).2).1]
    rfl
  · cases hop

/-- Only sets of the table that were not asked for are deleted. -/
theorem mem_staleSetOps {table : Str} {s : State} {op : Op}
    (hop : op ∈ (s.kernel.sets.filter fun x => x.table == table).flatMap (staleSetOps s)) :
    ∃ n, op = .delSet table n ∧ objectKey table n ∉ s.sets := by
  obtain ⟨x, hx, hop⟩ := List.mem_flatMap.1 hop
  have ht : x.table = table := by simpa using (List.mem_filter.1 hx).2
  unfold staleSetOps at hop
  split at hop
  · rename_i hstale
    rw [Bool.and_eq_true, Bool.not_eq_true', ← Bool.not_eq_true, List.contains_iff_mem,
      ht] at hstale
    rw [List.mem_singleton.1 hop, ht]
    exact ⟨x.name, rfl, hstale.1⟩
  · cases hop

theorem isDelete_of_mem_staleOps {h : Host} {table : Str} {s : State} :
    ∀ op ∈ staleOps h table s, op.isDelete = true := by
  intro op hop
  rcases List.mem_append.1 hop with hop | hop
  · obtain ⟨c, n, rfl⟩ := mem_staleChainOps hop
    rfl
  · obtain ⟨n, rfl, -⟩ := mem_staleSetOps hop
    rfl

/-- **`cleanupRules` commits its batch.** -/
theorem cleanupRules_commits {h : Host} {table : Str} {s s' : State} {u : Unit}
    (hm : s.messages = []) (hs : cleanupRules h table s = .ok u s') :
    s.kernel.admits (staleOps h table s) ∧ ∃ q, s' = { s with
      kernel := s.kernel.commit (staleOps h table s), queries := q } := by
  unfold cleanupRules at hs
  simp only [bind_eq_ok, wrapErr_eq_ok, Conn.listChainsOfTableFamily, Conn.getSets,
    query_eq_ok] at hs
  obtain ⟨_, _, ⟨-, rfl, rfl⟩, b₁, s₁, h₁, _, _, ⟨-, rfl, rfl⟩, b₂, s₂, h₂, hs⟩ := hs
  obtain ⟨⟨q₁, rfl⟩, rfl⟩ := foldlM_queues (g := staleChainOps h table) (fun _ _ _ _ => rfl)
    (fun _ _ _ _ _ h => cleanupChainRules_queues h) _ _ _ _ _ h₁
  obtain ⟨⟨q₂, rfl⟩, rfl⟩ := foldlM_queues (g := staleSetOps) (fun _ _ _ _ => rfl)
    (fun _ _ _ _ _ h => cleanupSet_queues h) _ _ _ _ _ h₂
  -- what is queued decides about the flush
  let ruleOps := s.kernel.chains.flatMap (staleChainOps h table s)
  let setOps := (s.kernel.sets.filter fun x => x.table == table).flatMap (staleSetOps s)
  have hb : (false || !ruleOps.isEmpty || !setOps.isEmpty) =
      !(s.messages ++ ruleOps ++ setOps).isEmpty := by
    rw [hm]
    cases ruleOps <;> cases setOps <;> rfl
  obtain ⟨hadm, rfl⟩ := flush_if_eq_ok hb hs
  change s.kernel.admits (s.messages ++ ruleOps ++ setOps) = true at hadm
  rw [hm, List.nil_append] at hadm
  refine ⟨hadm, q₂, ?_⟩
  change { s with
    kernel := s.kernel.commit (s.messages ++ ruleOps ++ setOps)
    queries := q₂
    messages := [] } = _
  rw [hm, List.nil_append]
  rfl

/-- **`cleanupRules` deletes the rules of its table whose key was not remembered.** -/
theorem cleanupRules_ok {h : Host} {table : Str} {s s' : State} {u : Unit} (wf : s.kernel.WF)
    (hm : s.messages = []) (hs : cleanupRules h table s = .ok u s') :
    Cleaned s s' ∧ s'.kernel.rules = s.kernel.rules.filter fun r =>
      !(r.table == table && !s.rules.contains (hashRule h r.listed)) := by
  obtain ⟨hadm, q, rfl⟩ := cleanupRules_commits hm hs
  refine ⟨⟨fun w => w.commit hadm, hm, rfl, rfl, rfl, rfl⟩, ?_⟩
  have hset : ∀ r : Rule, ((s.kernel.sets.filter fun x => x.table == table).flatMap
      (staleSetOps s)).any (Op.deletes r) = false := by
    intro r
    rw [List.any_eq_false]
    intro op hop
    obtain ⟨n, rfl, -⟩ := mem_staleSetOps hop
    simp [Op.deletes]
  change (s.kernel.commit (staleOps h table s)).rules = _
  rw [Kernel.commit_deletes isDelete_of_mem_staleOps]
  refine List.filter_congr fun r hr => ?_
  rw [staleOps, List.any_append, hset, Bool.or_false, Bool.eq_iff_iff, Bool.not_eq_true',
    Bool.not_eq_true', ← Bool.not_eq_true, ← Bool.not_eq_true, not_iff_not]
  rw [any_staleChainOps wf hr]
  simp

/-! ### Chains -/

/-- The deletion of a chain by `cleanupChains`. -/
def emptyChainOps (s : State) (chain : Chain) : List Op :=
  if (chain.table = filterTableName ∨ chain.table = natTableName) ∧
      (!s.chains.contains (objectKey chain.table chain.name) &&
        (s.kernel.getRules chain.table chain.name).isEmpty) = true then
    [.delChain chain.table chain.name] else []

/-- A chain is deleted when it was not asked for and is empty. -/
theorem cleanupChain_queues {h : Host} {b b' : Bool} {c : Chain} {s s' : State}
    (hs : cleanupChain h b c s = .ok b' s') :
    (∃ q, s' = { s with queries := q, messages := s.messages ++ emptyChainOps s c }) ∧
      b' = (b || !(emptyChainOps s c).isEmpty) := by
  unfold cleanupChain at hs
  unfold emptyChainOps
  split at hs
  · rename_i hc
    simp only [bind_eq_ok, wrapErr_eq_ok, Conn.getRules, query_eq_ok, get_eq_ok] at hs
    obtain ⟨_, _, ⟨-, rfl, rfl⟩, _, _, ⟨rfl, rfl⟩, hs⟩ := hs
    split at hs
    · rename_i hd
      simp only [bind_eq_ok, Conn.delChain, Conn.queue, modify_eq_ok, pure_eq_ok] at hs
      obtain ⟨_, _, rfl, rfl, rfl⟩ := hs
      rw [if_pos ⟨hc, hd⟩]
      exact ⟨⟨_, rfl⟩, by simp⟩
    · rename_i hd
      obtain ⟨rfl, rfl⟩ := pure_eq_ok.1 hs
      rw [if_neg fun h => hd h.2]
      exact ⟨⟨s.queries + 1, by simp⟩, by simp⟩
  · rename_i hc
    obtain ⟨rfl, rfl⟩ := pure_eq_ok.1 hs
    rw [if_neg fun h => hc h.1]
    exact ⟨⟨s.queries, by simp⟩, by simp⟩

/-- The batch of `cleanupChains`. -/
def emptyOps (s : State) : List Op := s.kernel.chains.flatMap (emptyChainOps s)

/-- The chains that are deleted. -/
theorem mem_emptyOps {s : State} {op : Op} (hop : op ∈ emptyOps s) : ∃ t c, op = .delChain t c ∧
    (t = filterTableName ∨ t = natTableName) ∧ objectKey t c ∉ s.chains ∧
    s.kernel.getRules t c = [] := by
  obtain ⟨c, -, hop⟩ := List.mem_flatMap.1 hop
  unfold emptyChainOps at hop
  split at hop
  · rename_i hc
    rw [Bool.and_eq_true, Bool.not_eq_true', ← Bool.not_eq_true, List.contains_iff_mem] at hc
    rw [List.mem_singleton.1 hop]
    exact ⟨_, _, rfl, hc.1, hc.2.1, List.isEmpty_iff.1 hc.2.2⟩
  · cases hop

theorem isDelete_of_mem_emptyOps {s : State} : ∀ op ∈ emptyOps s, op.isDelete = true := by
  intro op hop
  obtain ⟨t, c, rfl, -⟩ := mem_emptyOps hop
  rfl

/-- **`cleanupChains` commits its batch.** -/
theorem cleanupChains_commits {h : Host} {s s' : State} {u : Unit} (hm : s.messages = [])
    (hs : cleanupChains h s = .ok u s') : s.kernel.admits (emptyOps s) ∧
      ∃ q, s' = { s with kernel := s.kernel.commit (emptyOps s), queries := q } := by
  unfold cleanupChains at hs
  simp only [bind_eq_ok, wrapErr_eq_ok, Conn.listChainsOfTableFamily, query_eq_ok] at hs
  obtain ⟨_, _, ⟨-, rfl, rfl⟩, b₁, s₁, h₁, hs⟩ := hs
  obtain ⟨⟨q₁, rfl⟩, rfl⟩ := foldlM_queues (g := emptyChainOps) (fun _ _ _ _ => rfl)
    (fun _ _ _ _ _ h => cleanupChain_queues h) _ _ _ _ _ h₁
  have hb : (false || !(emptyOps s).isEmpty) = !(s.messages ++ emptyOps s).isEmpty := by
    rw [hm]
    rfl
  obtain ⟨hadm, rfl⟩ := flush_if_eq_ok hb hs
  change s.kernel.admits (s.messages ++ emptyOps s) = true at hadm
  rw [hm, List.nil_append] at hadm
  refine ⟨hadm, q₁, ?_⟩
  change { s with
    kernel := s.kernel.commit (s.messages ++ emptyOps s)
    queries := q₁
    messages := [] } = _
  rw [hm]
  rfl

/-- `cleanupChains` deletes no rule: the chains it deletes have none. -/
theorem cleanupChains_ok {h : Host} {s s' : State} {u : Unit} (hm : s.messages = [])
    (hs : cleanupChains h s = .ok u s') :
    Cleaned s s' ∧ s'.kernel.rules = s.kernel.rules := by
  obtain ⟨hadm, q, rfl⟩ := cleanupChains_commits hm hs
  refine ⟨⟨fun w => w.commit hadm, hm, rfl, rfl, rfl, rfl⟩, ?_⟩
  change (s.kernel.commit (emptyOps s)).rules = _
  rw [Kernel.commit_deletes isDelete_of_mem_emptyOps]
  refine List.filter_eq_self.2 fun r hr => ?_
  rw [Bool.not_eq_true', List.any_eq_false]
  intro op hop hdel
  obtain ⟨t, c, rfl, -, -, hempty⟩ := mem_emptyOps hop
  have hlisted : r.listed ∈ s.kernel.getRules t c :=
    List.mem_map.2 ⟨r, List.mem_filter.2 ⟨hr, hdel⟩, rfl⟩
  rw [hempty] at hlisted
  cases hlisted

/-! ### The whole cleanup -/

/-- The tables of the daemon. -/
def isManaged (t : Str) : Bool := t == filterTableName || t == natTableName

/-- **The cleanup keeps, in the daemon's tables, exactly the rules whose key was remembered**, and
every rule of other tables. -/
theorem cleanup_ok {h : Host} {s s' : State} {u : Unit} (wf : s.kernel.WF) (hm : s.messages = [])
    (hs : cleanup h s = .ok u s') :
    Cleaned s s' ∧ s'.kernel.rules = s.kernel.rules.filter fun r =>
      !(isManaged r.table && !s.rules.contains (hashRule h r.listed)) := by
  unfold cleanup at hs
  simp only [bind_eq_ok, wrapErr_eq_ok] at hs
  obtain ⟨_, s₁, h₁, _, s₂, h₂, h₃⟩ := hs
  obtain ⟨c₁, r₁⟩ := cleanupRules_ok wf hm h₁
  obtain ⟨c₂, r₂⟩ := cleanupRules_ok (c₁.wf wf) c₁.messages h₂
  obtain ⟨c₃, r₃⟩ := cleanupChains_ok c₂.messages h₃
  refine ⟨(c₁.trans c₂).trans c₃, ?_⟩
  rw [r₃, r₂, r₁, List.filter_filter, c₁.rules]
  refine List.filter_congr fun r _ => ?_
  unfold isManaged
  cases r.table == filterTableName <;> cases r.table == natTableName <;>
    cases s.rules.contains (hashRule h r.listed) <;> rfl

/-- The contents of a chain of the daemon after the cleanup. -/
theorem cleanup_chainRules {h : Host} {s s' : State} {u : Unit} (wf : s.kernel.WF)
    (hm : s.messages = []) (hs : cleanup h s = .ok u s') {t : Str} (ht : isManaged t = true)
    (c : Str) :
    s'.kernel.chainRules t c =
      (s.kernel.chainRules t c).filter fun r => s.rules.contains (hashRule h r) := by
  rw [Kernel.chainRules_eq, Kernel.chainRules_eq, (cleanup_ok wf hm hs).2]
  unfold inView
  rw [List.filter_map, List.filter_filter, List.filter_filter]
  congr 1
  refine List.filter_congr fun r _ => ?_
  cases hc : Rule.inChain t c r with
  | false => simp
  | true =>
    have hkey : hashRule h r.content = hashRule h r.listed := rfl
    rw [(Rule.inChain_iff.1 hc).1, ht, Function.comp_apply, hkey]
    cases s.rules.contains (hashRule h r.listed) <;> rfl

end MultiNetPolicy
