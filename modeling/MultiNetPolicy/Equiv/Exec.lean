import MultiNetPolicy.Server.Render

/-!
# Executions of rendering programs

A rendering program never sees the state it changes: listings show the committed ruleset, and the
calls only queue messages.  So an execution is described by the list of its calls.

* `Exec p es a`: the program `p` can return `a` after the calls `es`; there is one inversion lemma
  per construct (`exec_bind`, `exec_updateRule`, …).
* `Queued k es ops`: the messages that the calls queue against the committed ruleset `k`.
* `run_ok`: a successful `run` is an execution, and the state advances as its calls say.
-/

namespace MultiNetPolicy

open ByteString StateExcept

/-- A call and its answer: the chain and the set as they come back, whether the set is new to the
kernel, whether the rule is new. -/
inductive Event where
  | chain (c : Chain)
  | set (s : NftSet) (els : List SetElement) (fresh : Bool)
  | rule (r : Rule) (action : RuleAction) (force isNew : Bool)

namespace Event

def rule? : Event → Option Rule
  | rule r _ _ _ => some r
  | _ => none

def set? : Event → Option NftSet
  | set s _ _ => some s
  | _ => none

def chain? : Event → Option Chain
  | chain c => some c
  | _ => none

end Event

/-- The rules asked for. -/
def rulesOf (es : List Event) : List Rule := es.filterMap Event.rule?

/-- The sets asked for. -/
def setsOf (es : List Event) : List NftSet := es.filterMap Event.set?

/-- The chains asked for. -/
def chainsOf (es : List Event) : List Chain := es.filterMap Event.chain?

@[simp] theorem rulesOf_append (es₁ es₂ : List Event) :
    rulesOf (es₁ ++ es₂) = rulesOf es₁ ++ rulesOf es₂ := List.filterMap_append

@[simp] theorem setsOf_append (es₁ es₂ : List Event) :
    setsOf (es₁ ++ es₂) = setsOf es₁ ++ setsOf es₂ := List.filterMap_append

@[simp] theorem chainsOf_append (es₁ es₂ : List Event) :
    chainsOf (es₁ ++ es₂) = chainsOf es₁ ++ chainsOf es₂ := List.filterMap_append

theorem rulesOf_cons (e : Event) (es : List Event) :
    rulesOf (e :: es) = rulesOf [e] ++ rulesOf es := rulesOf_append [e] es

theorem setsOf_cons (e : Event) (es : List Event) :
    setsOf (e :: es) = setsOf [e] ++ setsOf es := setsOf_append [e] es

theorem chainsOf_cons (e : Event) (es : List Event) :
    chainsOf (e :: es) = chainsOf [e] ++ chainsOf es := chainsOf_append [e] es

/-- The rules of the calls. -/
theorem mem_rulesOf {es : List Event} {r : Rule} :
    r ∈ rulesOf es ↔ ∃ action force isNew, .rule r action force isNew ∈ es := by
  unfold rulesOf
  rw [List.mem_filterMap]
  constructor
  · rintro ⟨e, he, h⟩
    cases e with
    | rule r' action force isNew =>
      obtain rfl : r' = r := by simpa [Event.rule?] using h
      exact ⟨action, force, isNew, he⟩
    | chain c => simp [Event.rule?] at h
    | set s els fresh => simp [Event.rule?] at h
  · rintro ⟨action, force, isNew, he⟩
    exact ⟨_, he, rfl⟩

/-- The sets of the calls. -/
theorem mem_setsOf {es : List Event} {s : NftSet} :
    s ∈ setsOf es ↔ ∃ els fresh, .set s els fresh ∈ es := by
  unfold setsOf
  rw [List.mem_filterMap]
  constructor
  · rintro ⟨e, he, h⟩
    cases e with
    | set s' els fresh =>
      obtain rfl : s' = s := by simpa [Event.set?] using h
      exact ⟨els, fresh, he⟩
    | chain c => simp [Event.set?] at h
    | rule r action force isNew => simp [Event.set?] at h
  · rintro ⟨els, fresh, he⟩
    exact ⟨_, he, rfl⟩

/-- The chains of the calls. -/
theorem mem_chainsOf {es : List Event} {c : Chain} : c ∈ chainsOf es ↔ .chain c ∈ es := by
  unfold chainsOf
  rw [List.mem_filterMap]
  constructor
  · rintro ⟨e, he, hc⟩
    cases e with
    | chain c' =>
      obtain rfl : c' = c := by simpa [Event.chain?] using hc
      exact he
    | set x els fresh => cases hc
    | rule r action force isNew => cases hc
  · exact fun he => ⟨_, he, rfl⟩

/-- The chain that `addChain` returns. -/
def Chain.short (c : Chain) : Chain := { c with name := shortName c.name }

/-- The set that `updateSet` returns, with some ID. -/
def NftSet.short (s : NftSet) (id : Nat) : NftSet := { s with name := shortName s.name, id := id }

namespace Render

variable {α β : Type}

/-- `Exec p es a`: the program can return `a` after the calls `es`, whatever it is answered.  A set
that is new to the kernel gets an ID, another one keeps its own. -/
inductive Exec : Render α → List Event → α → Prop where
  | ret (a : α) : Exec (.ret a) [] a
  | chain {w c k es a} : Exec (k c.short) es a → Exec (.chain w c k) (.chain c.short :: es) a
  | set {w s els k es a} (id : Nat) (fresh : Bool) (hid : if fresh then id ≠ 0 else id = s.id) :
      Exec (k (s.short id)) es a → Exec (.set w s els k) (.set (s.short id) els fresh :: es) a
  | rule {w r action force k es a} (isNew : Bool) :
      Exec (k isNew) es a → Exec (.rule w r action force k) (.rule r action force isNew :: es) a

/-- **Executions of a sequence** are executions of its parts. -/
theorem exec_bind {x : Render α} {f : α → Render β} {es : List Event} {b : β} :
    Exec (x >>= f) es b ↔ ∃ a es₁ es₂, Exec x es₁ a ∧ Exec (f a) es₂ b ∧ es = es₁ ++ es₂ := by
  change Exec (Render.bind x f) es b ↔ _
  constructor
  · intro h
    -- from left to right by the program, back by the execution
    induction x generalizing es with
    | ret a => exact ⟨a, [], es, .ret a, h, rfl⟩
    | fail e => cases h
    | chain w c k ih =>
      cases h with
      | chain h =>
        obtain ⟨a, es₁, es₂, h₁, h₂, rfl⟩ := ih _ h
        exact ⟨a, _, es₂, .chain h₁, h₂, rfl⟩
    | set w s els k ih =>
      cases h with
      | set id fresh hid h =>
        obtain ⟨a, es₁, es₂, h₁, h₂, rfl⟩ := ih _ h
        exact ⟨a, _, es₂, .set id fresh hid h₁, h₂, rfl⟩
    | rule w r action force k ih =>
      cases h with
      | rule isNew h =>
        obtain ⟨a, es₁, es₂, h₁, h₂, rfl⟩ := ih _ h
        exact ⟨a, _, es₂, .rule isNew h₁, h₂, rfl⟩
  · rintro ⟨a, es₁, es₂, h₁, h₂, rfl⟩
    induction h₁ with
    | ret a => exact h₂
    | chain _ ih => exact .chain (ih h₂)
    | set id fresh hid _ ih => exact .set id fresh hid (ih h₂)
    | rule isNew _ ih => exact .rule isNew (ih h₂)

@[simp] theorem exec_pure {a b : α} {es : List Event} :
    Exec (pure a) es b ↔ b = a ∧ es = [] := by
  change Exec (.ret a) es b ↔ _
  constructor
  · rintro ⟨⟩
    exact ⟨rfl, rfl⟩
  · rintro ⟨rfl, rfl⟩
    exact .ret _

@[simp] theorem exec_fail {e : Error} {es : List Event} {a : α} :
    ¬ Exec (fail e : Render α) es a := by
  rintro ⟨⟩

@[simp] theorem exec_addChain {c x : Chain} {es : List Event} :
    Exec (addChain c) es x ↔ x = c.short ∧ es = [.chain c.short] := by
  constructor
  · rintro (_ | h)
    cases h
    exact ⟨rfl, rfl⟩
  · rintro ⟨rfl, rfl⟩
    exact .chain (.ret _)

/-- A set is answered with an identifier of its own when it is new. -/
@[simp] theorem exec_updateSet {s x : NftSet} {els : List SetElement} {es : List Event} :
    Exec (updateSet s els) es x ↔
      ∃ id fresh, (if fresh then id ≠ 0 else id = s.id) ∧ x = s.short id ∧
        es = [.set (s.short id) els fresh] := by
  constructor
  · rintro (_ | _ | ⟨id, fresh, hid, h⟩)
    cases h
    exact ⟨id, fresh, hid, rfl, rfl⟩
  · rintro ⟨id, fresh, hid, rfl, rfl⟩
    exact .set id fresh hid (.ret _)

/-- A rule is answered with whether it is new. -/
@[simp] theorem exec_updateRule {r : Rule} {action : RuleAction} {force x : Bool}
    {es : List Event} :
    Exec (updateRule r action force) es x ↔ es = [.rule r action force x] := by
  constructor
  · rintro (_ | _ | _ | ⟨isNew, h⟩)
    cases h
    rfl
  · rintro rfl
    exact .rule x (.ret _)

@[simp] theorem exec_ofExcept {e : Except Error α} {es : List Event} {a : α} :
    Exec (ofExcept e) es a ↔ e = .ok a ∧ es = [] := by
  cases e with
  | ok b =>
    change Exec (pure b) es a ↔ _
    rw [exec_pure]
    simp [eq_comm]
  | error e =>
    change Exec (fail e) es a ↔ _
    simp

/-- A conditional program runs or does nothing. -/
theorem exec_when {c : Prop} [Decidable c] {x : Render Unit} {es : List Event} {u : Unit} :
    Exec (when c x) es u ↔ (c ∧ Exec x es u) ∨ (¬ c ∧ es = []) := by
  unfold when
  by_cases hc : c
  · simp [hc]
  · rw [if_neg hc]
    change Exec (pure ()) es u ↔ _
    simp [hc]

/-- What is done to errors does not matter for executions that succeed. -/
@[simp] theorem exec_wrapErr {context : Str} {x : Render α} {es : List Event} {a : α} :
    Exec (wrapErr context x) es a ↔ Exec x es a := by
  constructor
  · intro h
    induction x generalizing es with
    | ret b => exact h
    | fail e => cases h
    | chain w c k ih => cases h with | chain h => exact .chain (ih _ h)
    | set w s els k ih => cases h with | set id fresh hid h => exact .set id fresh hid (ih _ h)
    | rule w r action force k ih => cases h with | rule isNew h => exact .rule isNew (ih _ h)
  · intro h
    induction h with
    | ret a => exact .ret a
    | chain _ ih => exact .chain ih
    | set id fresh hid _ ih => exact .set id fresh hid ih
    | rule isNew _ ih => exact .rule isNew ih

/-- The rounds of a loop, each with its index. -/
theorem exec_forEach {f : Nat → α → Render Unit} : ∀ {l : List α} {i : Nat} {es : List Event}
    {u : Unit}, Exec (forEach f i l) es u ↔
      ∃ ess, List.Forall₂ (fun p e => Exec (f p.2 p.1) e ()) (l.zipIdx i) ess ∧ es = ess.flatten
  | [], i, es, u => by
    change Exec (pure ()) es u ↔ _
    simp
  | x :: xs, i, es, u => by
    change Exec (f i x >>= fun _ => forEach f (i + 1) xs) es u ↔ _
    rw [exec_bind, List.zipIdx_cons]
    simp only [exec_forEach, List.forall₂_cons_left_iff]
    constructor
    · rintro ⟨_, es₁, _, h₁, ⟨ess, hess, rfl⟩, rfl⟩
      exact ⟨es₁ :: ess, ⟨es₁, ess, h₁, hess, rfl⟩, rfl⟩
    · rintro ⟨_, ⟨es₁, ess, h₁, hess, rfl⟩, rfl⟩
      exact ⟨(), es₁, _, h₁, ⟨ess, hess, rfl⟩, rfl⟩

/-- The rounds of a loop that collects a flag. -/
theorem exec_orLoop {f : α → Render Bool} : ∀ {l : List α} {es : List Event} {b : Bool},
    Exec (orLoop f l) es b ↔
      ∃ rs : List (List Event × Bool), List.Forall₂ (fun x r => Exec (f x) r.1 r.2) l rs ∧
        es = (rs.map Prod.fst).flatten ∧ b = rs.any Prod.snd
  | [], es, b => by
    change Exec (pure false) es b ↔ _
    simp [and_comm]
  | x :: xs, es, b => by
    change Exec (f x >>= fun b => orLoop f xs >>= fun bs => pure (b || bs)) es b ↔ _
    simp only [exec_bind, exec_orLoop, exec_pure, List.forall₂_cons_left_iff]
    constructor
    · rintro ⟨b₁, es₁, _, h₁, ⟨b₂, _, _, ⟨rs, hrs, rfl, rfl⟩, ⟨rfl, rfl⟩, rfl⟩, rfl⟩
      exact ⟨(es₁, b₁) :: rs, ⟨(es₁, b₁), rs, h₁, hrs, rfl⟩, by simp, by simp⟩
    · rintro ⟨_, ⟨r, rs, h₁, hrs, rfl⟩, rfl, rfl⟩
      exact ⟨r.2, r.1, _, h₁, ⟨_, _, [], ⟨rs, hrs, rfl, rfl⟩, ⟨rfl, rfl⟩, rfl⟩, by simp⟩

end Render

/-! ### What a call queues -/

/-- The rule that `findRule` finds. -/
def Kernel.findRule (k : Kernel) (r : Rule) : Option Rule :=
  (k.getRules r.table r.chain).find? (ruleEqual r)

/-- The message of an action. -/
def RuleAction.op : RuleAction → Rule → Op
  | addRule, r => .addRule r
  | insertRule, r => .insertRule r

/-- The element messages that turn the contents of a set into others. -/
def updateElementOps (s : NftSet) (els existing : List SetElement) : List Op :=
  Conn.elementOps (.deleteElements s.table s.name) (findNonCommon existing els) ++
    Conn.elementOps (.addElements s.table s.name) (findNonCommon els existing)

/-- `e.Queues k ops`: the answer fits the committed ruleset `k`, and the call queues `ops`.  A chain
that exists is queued again when its listing failed. -/
def Event.Queues (k : Kernel) : Event → List Op → Prop
  | .chain c, ops => ops = [.addChain c] ∨ (k.hasChain c.table c.name ∧ ops = [])
  | .set s els fresh, ops =>
    fresh = !k.hasSet s.table s.name ∧
      ops = if fresh then .addSet s :: Conn.elementOps (.addElements s.table s.name) els
        else updateElementOps s els (k.getElements s.table s.name)
  | .rule r action force isNew, ops =>
    match k.findRule r with
    | none => isNew = true ∧ ops = [action.op r]
    | some e =>
      isNew = false ∧ ops = if force then [.delRule e.table e.chain e.handle, action.op r] else []

/-- The messages that a call may queue. -/
inductive Event.Sends (k : Kernel) : Event → Op → Prop where
  | chain (c : Chain) : Sends k (.chain c) (.addChain c)
  | set (s : NftSet) (els : List SetElement) (fresh : Bool) :
    Sends k (.set s els fresh) (.addSet s)
  | addElements (s : NftSet) (els : List SetElement) (fresh : Bool) (added : List SetElement) :
    Sends k (.set s els fresh) (.addElements s.table s.name added)
  | deleteElements (s : NftSet) (els : List SetElement) (fresh : Bool) (deleted : List SetElement) :
    Sends k (.set s els fresh) (.deleteElements s.table s.name deleted)
  | rule (r : Rule) (action : RuleAction) (force isNew : Bool) :
    Sends k (.rule r action force isNew) (action.op r)
  | delRule (r : Rule) (action : RuleAction) (force isNew : Bool) (x : Rule)
      (hx : k.findRule r = some x) :
    Sends k (.rule r action force isNew) (.delRule x.table x.chain x.handle)

/-- Elements are sent in one message, or in none. -/
theorem eq_of_mem_elementOps {mk : List SetElement → Op} {els : List SetElement} {op : Op}
    (h : op ∈ Conn.elementOps mk els) : op = mk els := by
  unfold Conn.elementOps at h
  split at h
  · cases h
  · exact List.mem_singleton.1 h

/-- A call queues nothing else. -/
theorem Event.Queues.sends {k : Kernel} {e : Event} {ops : List Op} (he : e.Queues k ops) :
    ∀ op ∈ ops, e.Sends k op := by
  intro op hop
  cases e with
  | chain c =>
    rcases he with rfl | ⟨-, rfl⟩
    · obtain rfl := List.mem_singleton.1 hop
      exact .chain c
    · cases hop
  | set s els fresh =>
    obtain ⟨-, rfl⟩ := he
    -- a new set is sent with all its elements, an old one with what changed
    split at hop
    · rcases List.mem_cons.1 hop with rfl | hop
      · exact .set s els _
      · rw [eq_of_mem_elementOps hop]
        exact .addElements s els _ _
    · rcases List.mem_append.1 hop with hop | hop
      · rw [eq_of_mem_elementOps hop]
        exact .deleteElements s els _ _
      · rw [eq_of_mem_elementOps hop]
        exact .addElements s els _ _
  | rule r action force isNew =>
    simp only [Event.Queues] at he
    cases hf : k.findRule r with
    | none =>
      simp only [hf] at he
      obtain ⟨-, rfl⟩ := he
      obtain rfl := List.mem_singleton.1 hop
      exact .rule r action force isNew
    | some x =>
      simp only [hf] at he
      obtain ⟨-, rfl⟩ := he
      split at hop
      · rcases List.mem_cons.1 hop with rfl | hop
        · exact .delRule r action force isNew x hf
        · obtain rfl := List.mem_singleton.1 hop
          exact .rule r action force isNew
      · cases hop

/-- The calls fit the committed ruleset and queue `ops`. -/
def Queued (k : Kernel) (es : List Event) (ops : List Op) : Prop :=
  ∃ opss, List.Forall₂ (Event.Queues k) es opss ∧ ops = opss.flatten

namespace Queued

theorem nil (k : Kernel) : Queued k [] [] := ⟨[], .nil, rfl⟩

theorem cons {k : Kernel} {e : Event} {es : List Event} {ops₁ ops₂ : List Op}
    (h₁ : e.Queues k ops₁) (h₂ : Queued k es ops₂) : Queued k (e :: es) (ops₁ ++ ops₂) := by
  obtain ⟨opss, h, rfl⟩ := h₂
  exact ⟨ops₁ :: opss, .cons h₁ h, rfl⟩

/-- The messages of the first call, and the others. -/
theorem cons_inv {k : Kernel} {e : Event} {es : List Event} {ops : List Op}
    (h : Queued k (e :: es) ops) :
    ∃ ops₁ ops₂, e.Queues k ops₁ ∧ Queued k es ops₂ ∧ ops = ops₁ ++ ops₂ := by
  obtain ⟨opss, h, rfl⟩ := h
  cases h with
  | cons h₁ h₂ => exact ⟨_, _, h₁, ⟨_, h₂, rfl⟩, rfl⟩

end Queued

/-- How the calls `es` advance a state. -/
structure Advance (h : Host) (es : List Event) (s s' : State) : Prop where
  kernel : s'.kernel = s.kernel
  messages : ∃ ops, Queued s.kernel es ops ∧ s'.messages = s.messages ++ ops
  rules : s'.rules = s.rules ++ (rulesOf es).map (hashRule h)
  sets : s'.sets = s.sets ++ (setsOf es).map fun x => objectKey x.table x.name
  chains : s'.chains = s.chains ++ (chainsOf es).map fun c => objectKey c.table c.name
  requested : s'.requested = s.requested ++ rulesOf es

namespace Advance

variable {h : Host}

theorem nil (s : State) : Advance h [] s s where
  kernel := rfl
  messages := ⟨[], .nil _, by simp⟩
  rules := by simp [rulesOf]
  sets := by simp [setsOf]
  chains := by simp [chainsOf]
  requested := by simp [rulesOf]

theorem cons {e : Event} {es : List Event} {s s₁ s' : State} (h₁ : Advance h [e] s s₁)
    (h₂ : Advance h es s₁ s') : Advance h (e :: es) s s' where
  kernel := h₂.kernel.trans h₁.kernel
  messages := by
    obtain ⟨ops₁, hq₁, hm₁⟩ := h₁.messages
    obtain ⟨ops₂, hq₂, hm₂⟩ := h₂.messages
    obtain ⟨opsₑ, ops₀, he, hnil, rfl⟩ := hq₁.cons_inv
    obtain ⟨_, ⟨⟩, rfl⟩ := hnil
    rw [h₁.kernel] at hq₂
    exact ⟨_, .cons he hq₂, by simp [hm₂, hm₁]⟩
  rules := by
    rw [h₂.rules, h₁.rules, rulesOf_cons e es, List.map_append, List.append_assoc]
  sets := by
    rw [h₂.sets, h₁.sets, setsOf_cons e es, List.map_append, List.append_assoc]
  chains := by
    rw [h₂.chains, h₁.chains, chainsOf_cons e es, List.map_append, List.append_assoc]
  requested := by
    rw [h₂.requested, h₁.requested, rulesOf_cons e es, List.append_assoc]

end Advance

/-! ### The calls with a connection -/

@[simp] theorem mapErr_eq_ok {α : Type} {f : Error → Error} {x : M α} {s s' : State} {a : α} :
    mapErr f x s = .ok a s' ↔ x s = .ok a s' := by
  unfold mapErr
  cases x s with
  | ok b s₁ => simp
  | error e s₁ => simp

@[simp] theorem wrapErr_eq_ok {α : Type} {c : Str} {x : M α} {s s' : State} {a : α} :
    wrapErr c x s = .ok a s' ↔ x s = .ok a s' := mapErr_eq_ok

/-- What holds at the end does not depend on the text of the error. -/
theorem triple_mapErr {α : Type} {P : State → Prop} {Q : α → State → Prop} {E : State → Prop}
    {x : M α} (hx : Triple P x Q E) (f : Error → Error) : Triple P (mapErr f x) Q E := by
  intro s hs
  have hq := hx s hs
  unfold mapErr
  cases hxs : x s with
  | ok a s' =>
    rw [hxs] at hq
    exact hq
  | error e s' =>
    rw [hxs] at hq
    exact hq

theorem triple_wrapErr {α : Type} {P : State → Prop} {Q : α → State → Prop} {E : State → Prop}
    {x : M α} (hx : Triple P x Q E) (c : Str) : Triple P (wrapErr c x) Q E := triple_mapErr hx _

theorem keeps_wrapErr {I : State → Prop} {α : Type} {x : M α} {Q : α → Prop} (hx : Keeps I x Q)
    (c : Str) : Keeps I (wrapErr c x) Q := triple_wrapErr hx c

@[simp] theorem orPanic_eq_ok {α : Type} {x : Except Panic α} {s s' : State} {a : α} :
    orPanic x s = .ok a s' ↔ x = .ok a ∧ s = s' := by
  cases x with
  | ok b => simp [orPanic]
  | error e => simp [orPanic]

theorem triple_orPanic {α : Type} {x : Except Panic α} {P : State → Prop} {Q : α → State → Prop}
    {E : State → Prop} (hok : ∀ a, x = .ok a → ∀ s, P s → Q a s)
    (herror : ∀ e, x = .error e → ∀ s, P s → E s) : Triple P (orPanic x) Q E := by
  cases x with
  | ok a => exact Triple.pure (hok a rfl)
  | error e => exact Triple.throw (herror e rfl)

theorem request_apply (h : Host) (s : State) :
    Conn.request h s = .ok (!h.fault s.queries) { s with queries := s.queries + 1 } := rfl

/-- A listing request that succeeds shows the committed ruleset. -/
theorem query_eq_ok {α : Type} {h : Host} {f : Kernel → α} {s s' : State} {a : α} :
    Conn.query h f s = .ok a s' ↔
      h.fault s.queries = false ∧ a = f s.kernel ∧ s' = { s with queries := s.queries + 1 } := by
  unfold Conn.query
  rw [bind_apply, request_apply]
  cases h.fault s.queries with
  | false =>
    change EStateM.Result.ok (f s.kernel) { s with queries := s.queries + 1 } = _ ↔ _
    simp [eq_comm]
  | true =>
    change EStateM.Result.error Error.netlink { s with queries := s.queries + 1 } = _ ↔ _
    simp

/-- A listing answers from the kernel, or fails. -/
theorem triple_query {α : Type} {h : Host} {f : Kernel → α} {P : State → Prop}
    {Q : α → State → Prop} {E : State → Prop}
    (hq : ∀ s, P s →
      (h.fault s.queries = false → Q (f s.kernel) { s with queries := s.queries + 1 }) ∧
      (h.fault s.queries = true → E { s with queries := s.queries + 1 })) :
    Triple P (Conn.query h f) Q E := by
  intro s hs
  obtain ⟨hok, herror⟩ := hq s hs
  unfold Conn.query
  rw [bind_apply, request_apply]
  cases hf : h.fault s.queries with
  | false => exact hok hf
  | true => exact herror hf

/-- A batch is committed, or refused and forgotten. -/
theorem triple_flush {h : Host} {P : State → Prop} {Q : Unit → State → Prop} {E : State → Prop}
    (hq : ∀ s, P s →
      (s.kernel.admits s.messages = true →
        s.messages = [] ∨ h.accepts s.kernel s.messages = true →
        Q () { s with kernel := s.kernel.commit s.messages, messages := [] }) ∧
      ((s.kernel.admits s.messages && h.accepts s.kernel s.messages) = false →
        E { s with messages := [] })) : Triple P (Conn.flush h) Q E := by
  intro s hs
  obtain ⟨hok, herror⟩ := hq s hs
  have hflush : Conn.flush h s = if s.messages = [] then .ok () s
      else if s.kernel.admits s.messages && h.accepts s.kernel s.messages then
        .ok () { s with kernel := s.kernel.commit s.messages, messages := [] }
      else .error .refused { s with messages := [] } := by
    unfold Conn.flush
    change (if s.messages = [] then _ else _ : M Unit) s = _
    split
    · rfl
    · split <;> rfl
  rw [hflush]
  by_cases hm : s.messages = []
  · rw [if_pos hm]
    have hq' := hok (by rw [hm]; rfl) (.inl hm)
    rw [hm, Kernel.commit_nil, ← hm] at hq'
    exact hq'
  · rw [if_neg hm]
    cases hacc : s.kernel.admits s.messages && h.accepts s.kernel s.messages with
    | true =>
      rw [Bool.and_eq_true] at hacc
      exact hok hacc.1 (.inr hacc.2)
    | false => exact herror hacc

/-- An accepted batch is committed. -/
theorem flush_eq_ok {h : Host} {s s' : State} {u : Unit} (hs : Conn.flush h s = .ok u s') :
    s.kernel.admits s.messages ∧
      s' = { s with kernel := s.kernel.commit s.messages, messages := [] } := by
  unfold Conn.flush at hs
  simp only [bind_eq_ok, get_eq_ok] at hs
  obtain ⟨_, _, ⟨rfl, rfl⟩, hs⟩ := hs
  split at hs
  · rename_i hm
    obtain ⟨-, rfl⟩ := pure_eq_ok.1 hs
    rw [hm]
    refine ⟨rfl, ?_⟩
    rw [Kernel.commit_nil, ← hm]
  · split at hs
    · rename_i hacc
      obtain ⟨⟩ := hs
      exact ⟨(Bool.and_eq_true _ _ ▸ hacc).1, rfl⟩
    · obtain ⟨_, _, -, hs⟩ := bind_eq_ok.1 hs
      exact absurd hs throw_ne_ok

/-- What is committed was accepted. -/
theorem flush_accepted {h : Host} {s s' : State} {u : Unit} (hs : Conn.flush h s = .ok u s') :
    s.messages = [] ∨ h.accepts s.kernel s.messages = true := by
  have htriple : Triple (fun t => t = s) (Conn.flush h)
      (fun _ _ => s.messages = [] ∨ h.accepts s.kernel s.messages = true) fun _ => True := by
    refine triple_flush fun t ht => ?_
    rw [ht]
    exact ⟨fun _ hacc => hacc, fun _ => trivial⟩
  exact htriple.of_ok rfl hs

/-- Expressions that compare as equal are equal. -/
theorem eq_of_exprEqual {a b : Expr} (h : exprEqual a b = true) : a = b := by
  unfold exprEqual at h
  split at h
  · exact absurd h (by simp)
  · exact eq_of_beq h

/-- Lists of one length with equal elements. -/
theorem eq_of_zip_all {l₁ l₂ : List Expr} (hlen : l₁.length = l₂.length)
    (h : ((l₁.zip l₂).all fun (x, y) => exprEqual x y) = true) : l₁ = l₂ := by
  induction l₁ generalizing l₂ with
  | nil => exact (List.length_eq_zero_iff.1 hlen.symm).symm
  | cons x xs ih =>
    cases l₂ with
    | nil => simp at hlen
    | cons y ys =>
      rw [List.zip_cons_cons, List.all_cons, Bool.and_eq_true] at h
      rw [eq_of_exprEqual h.1, ih (by simpa using hlen) h.2]

/-- Rules that compare as equal differ at most in their handles. -/
theorem erase_eq_of_ruleEqual {a b : Rule} (h : ruleEqual a b = true) : a.erase = b.erase := by
  unfold ruleEqual at h
  simp only [Bool.and_eq_true, beq_iff_eq] at h
  obtain ⟨⟨⟨⟨hc, ht⟩, hl⟩, hu⟩, he⟩ := h
  unfold Rule.erase
  rw [hc, ht, hu, eq_of_zip_all hl he]

/-- The key of a rule does not see its handle. -/
@[simp] theorem hashRule_erase (h : Host) (r : Rule) : hashRule h r.erase = hashRule h r := rfl

/-- Equal rules have equal keys. -/
theorem hashRule_eq_of_ruleEqual {h : Host} {a b : Rule} (hab : ruleEqual a b = true) :
    hashRule h a = hashRule h b := by
  rw [← hashRule_erase, erase_eq_of_ruleEqual hab, hashRule_erase]

/-- What is found is equal to what is looked for. -/
theorem ruleEqual_of_findRule {k : Kernel} {r e : Rule} (h : k.findRule r = some e) :
    ruleEqual r e = true := by
  simpa using List.find?_some h

/-- Looking a rule up takes one listing. -/
theorem findRule_eq_ok {h : Host} {r : Rule} {s s' : State} {x : Option Rule} :
    findRule h r s = .ok x s' ↔
      h.fault s.queries = false ∧ x = s.kernel.findRule r ∧
        s' = { s with queries := s.queries + 1 } := by
  unfold findRule
  simp only [bind_eq_ok, wrapErr_eq_ok, Conn.getRules, query_eq_ok, pure_eq_ok]
  constructor
  · rintro ⟨_, _, ⟨hf, rfl, rfl⟩, rfl, rfl⟩
    exact ⟨hf, rfl, rfl⟩
  · rintro ⟨hf, rfl, rfl⟩
    exact ⟨_, _, ⟨hf, rfl, rfl⟩, rfl, rfl⟩

/-- The state after a queued rule. -/
theorem run_action_eq_ok {action : RuleAction} {r : Rule} {s s' : State} {u : Unit}
    (hs : action.run r s = .ok u s') :
    ∃ id, s' = { s with lastID := id, messages := s.messages ++ [action.op r] } := by
  cases action with
  | addRule =>
    obtain ⟨⟩ := hs
    exact ⟨_, rfl⟩
  | insertRule =>
    obtain ⟨⟩ := hs
    exact ⟨_, rfl⟩

/-- What `updateRule` does to the connection. -/
theorem updateRule_advance {h : Host} {r : Rule} {action : RuleAction} {force isNew : Bool}
    {s s' : State} (hs : updateRule h r action force s = .ok isNew s') :
    Advance h [.rule r action force isNew] s s' := by
  unfold updateRule at hs
  simp only [bind_eq_ok, wrapErr_eq_ok, findRule_eq_ok, modify_eq_ok] at hs
  obtain ⟨_, s₁, rfl, found, s₂, ⟨-, rfl, rfl⟩, hs⟩ := hs
  change _ = _ at hs
  cases hf : s.kernel.findRule r with
  | none =>
    simp only [hf, bind_eq_ok, trackRule, modify_eq_ok, pure_eq_ok] at hs
    obtain ⟨_, s₃, ha, _, s₄, rfl, rfl, rfl⟩ := hs
    obtain ⟨id, rfl⟩ := run_action_eq_ok ha
    exact ⟨rfl, ⟨[action.op r], ⟨[[action.op r]], .cons (by simp [Event.Queues, hf]) .nil,
      rfl⟩, rfl⟩,
      rfl, by simp [setsOf, Event.set?], by simp [chainsOf, Event.chain?], rfl⟩
  | some e =>
    -- the key of the rule that is found is tracked, which is the same
    have hkey : hashRule h e = hashRule h r :=
      (hashRule_eq_of_ruleEqual (ruleEqual_of_findRule hf)).symm
    cases force with
    | false =>
      simp only [hf, bind_eq_ok, trackRule, modify_eq_ok, pure_eq_ok, if_false,
        Bool.false_eq_true] at hs
      obtain ⟨_, s₃, rfl, rfl, rfl⟩ := hs
      exact ⟨rfl, ⟨[], ⟨[[]], .cons (by simp [Event.Queues, hf]) .nil, rfl⟩, by simp⟩,
        by simp [rulesOf, Event.rule?, hkey], by simp [setsOf, Event.set?],
        by simp [chainsOf, Event.chain?], rfl⟩
    | true =>
      simp only [hf, bind_eq_ok, trackRule, modify_eq_ok, pure_eq_ok, if_true, Conn.delRule,
        Conn.queue] at hs
      obtain ⟨_, s₃, rfl, _, s₄, ha, _, s₅, rfl, rfl, rfl⟩ := hs
      obtain ⟨id, rfl⟩ := run_action_eq_ok ha
      refine ⟨rfl, ⟨[.delRule e.table e.chain e.handle, action.op r],
        ⟨[[.delRule e.table e.chain e.handle, action.op r]],
          .cons (by simp [Event.Queues, hf]) .nil, rfl⟩, by simp⟩, rfl,
        by simp [setsOf, Event.set?], by simp [chainsOf, Event.chain?], rfl⟩

/-- `ListChain` finds a chain only when it exists. -/
theorem listChain_eq_ok {h : Host} {t c : Str} {s s' : State} {x : Option Chain}
    (hs : Conn.listChain h t c s = .ok x s') :
    s' = { s with queries := s.queries + 1 } ∧ (x.isSome → s.kernel.hasChain t c) := by
  unfold Conn.listChain at hs
  rw [bind_apply, request_apply] at hs
  simp only [bind_eq_ok, get_eq_ok, pure_eq_ok] at hs
  obtain ⟨_, _, ⟨rfl, rfl⟩, rfl, rfl⟩ := hs
  refine ⟨rfl, fun hsome => ?_⟩
  split at hsome
  · exact hsome
  · exact absurd hsome (by simp)

/-- What `addChain` does to the connection. -/
theorem addChain_advance {h : Host} {c x : Chain} {s s' : State}
    (hs : addChain h c s = .ok x s') : x = c.short ∧ Advance h [.chain c.short] s s' := by
  unfold addChain at hs
  simp only [bind_eq_ok] at hs
  obtain ⟨found, s₁, hl, hs⟩ := hs
  obtain ⟨rfl, hfound⟩ := listChain_eq_ok hl
  cases found with
  | none =>
    simp only [bind_eq_ok, Conn.addChain, Conn.queue, trackChain, modify_eq_ok, pure_eq_ok] at hs
    obtain ⟨_, s₂, rfl, _, s₃, rfl, rfl, rfl⟩ := hs
    exact ⟨rfl, rfl, ⟨_, ⟨[[.addChain c.short]], .cons (.inl rfl) .nil, rfl⟩, rfl⟩,
      by simp [rulesOf, Event.rule?], by simp [setsOf, Event.set?], rfl,
      by simp [rulesOf, Event.rule?]⟩
  | some y =>
    simp only [bind_eq_ok, trackChain, modify_eq_ok, pure_eq_ok] at hs
    obtain ⟨_, s₂, rfl, rfl, rfl⟩ := hs
    exact ⟨rfl, rfl, ⟨_, ⟨[[]], .cons (.inr ⟨hfound rfl, rfl⟩) .nil, rfl⟩, by simp⟩,
      by simp [rulesOf, Event.rule?], by simp [setsOf, Event.set?], rfl,
      by simp [rulesOf, Event.rule?]⟩

theorem setDeleteElements_eq_ok {set : NftSet} {els : List SetElement} {s s' : State}
    (hs : Conn.setDeleteElements set els s = .ok () s') :
    s' = { s with messages := s.messages ++
      Conn.elementOps (.deleteElements set.table set.name) els } := by
  unfold Conn.setDeleteElements at hs
  split at hs
  · exact absurd hs throw_ne_ok
  · exact (modify_eq_ok.1 hs).symm

theorem setAddElements_eq_ok {set : NftSet} {els : List SetElement} {s s' : State}
    (hs : Conn.setAddElements set els s = .ok () s') :
    s' = { s with messages := s.messages ++
      Conn.elementOps (.addElements set.table set.name) els } := by
  unfold Conn.setAddElements at hs
  split at hs
  · exact absurd hs throw_ne_ok
  · exact (modify_eq_ok.1 hs).symm

/-- The elements that are too many go before those that are missing come. -/
theorem updateElements_eq_ok {set : NftSet} {toAdd toDel : List SetElement} {s s' : State}
    {u : Unit}
    (hs : updateElements set toAdd toDel s = .ok u s') :
    s' = { s with messages := s.messages ++
      (Conn.elementOps (.deleteElements set.table set.name) toDel ++
        Conn.elementOps (.addElements set.table set.name) toAdd) } := by
  -- an empty list of elements is not sent
  have hnil : ∀ {l : List SetElement} {op : List SetElement → Op}, ¬ l.length > 0 →
      Conn.elementOps op l = [] := by
    intro l op hl
    rw [List.length_eq_zero_iff.1 (by omega : l.length = 0)]
    rfl
  unfold updateElements at hs
  split at hs
  · obtain ⟨_, s₁, hdel, hs⟩ := bind_eq_ok.1 hs
    rw [setDeleteElements_eq_ok (wrapErr_eq_ok.1 hdel)] at hs
    split at hs
    · rw [setAddElements_eq_ok (wrapErr_eq_ok.1 hs)]
      simp
    · rename_i hadd
      obtain ⟨-, rfl⟩ := pure_eq_ok.1 hs
      simp [hnil hadd]
  · rename_i hdel
    split at hs
    · rw [setAddElements_eq_ok (wrapErr_eq_ok.1 hs)]
      simp [hnil hdel]
    · rename_i hadd
      obtain ⟨-, rfl⟩ := pure_eq_ok.1 hs
      simp [hnil hdel, hnil hadd]

/-- What is found is a set with that name. -/
theorem Kernel.findSet_eq_some {k : Kernel} {t n : Str} {s : NftSet} (h : k.findSet t n = some s) :
    s ∈ k.sets ∧ s.table = t ∧ s.name = n := by
  unfold findSet at h
  refine ⟨List.mem_of_find?_eq_some h, ?_⟩
  simpa using List.find?_some h

/-- The ID that `AddSet` hands out. -/
theorem addSet_eq_ok {set x : NftSet} {els : List SetElement} {s s' : State}
    (hs : Conn.addSet set els s = .ok x s') :
    ∃ id lastID, id ≠ 0 ∧ x = { set with id := id } ∧
      s' = { s with
        lastID := lastID
        messages := s.messages ++
          (.addSet { set with id := id } ::
            Conn.elementOps (.addElements set.table set.name) els) } := by
  unfold Conn.addSet at hs
  split at hs
  · simp only [bind_eq_ok, Conn.queue, modify_eq_ok, pure_eq_ok] at hs
    obtain ⟨id, s₁, hid, _, s₂, rfl, rfl, rfl⟩ := hs
    unfold Conn.allocateTransactionID at hid
    obtain ⟨⟩ := hid
    refine ⟨_, _, ?_, rfl, rfl⟩
    split
    · exact one_ne_zero
    · assumption
  · simp only [bind_eq_ok, Conn.queue, modify_eq_ok, pure_eq_ok] at hs
    obtain ⟨id, s₁, ⟨rfl, rfl⟩, _, s₂, rfl, rfl, rfl⟩ := hs
    exact ⟨set.id, s.lastID, by assumption, rfl, rfl⟩

/-- What `updateSet` does to the connection. -/
theorem updateSet_advance {h : Host} {set x : NftSet} {els : List SetElement} {s s' : State}
    (hs : updateSet h set els s = .ok x s') :
    ∃ id fresh, (if fresh then id ≠ 0 else id = set.id) ∧ x = set.short id ∧
      Advance h [.set (set.short id) els fresh] s s' := by
  unfold updateSet at hs
  simp only [bind_eq_ok, wrapErr_eq_ok, Conn.getSetByName, query_eq_ok] at hs
  obtain ⟨_, _, ⟨-, rfl, rfl⟩, hs⟩ := hs
  change _ = _ at hs
  cases hf : s.kernel.findSet set.table (shortName set.name) with
  | none =>
    simp only [hf, bind_eq_ok, trackSet, modify_eq_ok, pure_eq_ok] at hs
    obtain ⟨y, s₁, hadd, _, s₂, rfl, rfl, rfl⟩ := hs
    obtain ⟨id, lastID, hid, rfl, rfl⟩ := addSet_eq_ok hadd
    -- a set that is not found gets an identifier of its own
    have hfresh : s.kernel.hasSet set.table (shortName set.name) = false := by
      simp [Kernel.hasSet, hf]
    refine ⟨id, true, by simpa using hid, rfl, rfl, ⟨_, ⟨[_], .cons ⟨?_, rfl⟩ .nil, rfl⟩, ?_⟩,
      by simp [rulesOf, Event.rule?], rfl, by simp [chainsOf, Event.chain?],
      by simp [rulesOf, Event.rule?]⟩
    · simp [NftSet.short, hfresh]
    · simp [NftSet.short]
  | some existing =>
    obtain ⟨-, ht, hn⟩ := Kernel.findSet_eq_some hf
    simp only [hf, bind_eq_ok, mapErr_eq_ok, Conn.getSetElements, query_eq_ok, trackSet,
      modify_eq_ok, pure_eq_ok] at hs
    obtain ⟨_, _, ⟨-, rfl, rfl⟩, _, s₁, hup, _, s₂, rfl, rfl, rfl⟩ := hs
    -- a set that is found keeps the identifier of the call
    have hold : s.kernel.hasSet set.table (shortName set.name) = true := by
      simp [Kernel.hasSet, hf]
    rw [updateElements_eq_ok hup]
    refine ⟨set.id, false, by simp, rfl, rfl, ⟨_, ⟨[_], .cons ⟨?_, rfl⟩ .nil, rfl⟩, ?_⟩,
      by simp [rulesOf, Event.rule?], rfl, by simp [chainsOf, Event.chain?],
      by simp [rulesOf, Event.rule?]⟩
    · simp [NftSet.short, hold]
    · simp [NftSet.short, updateElementOps, processElements, ht, hn]

namespace Render

/-- **A successful run is an execution**, and the state advances as its calls say. -/
theorem run_ok {α : Type} {h : Host} {p : Render α} {s s' : State} {a : α}
    (hs : p.run h s = .ok a s') : ∃ es, Exec p es a ∧ Advance h es s s' := by
  induction p generalizing s with
  | ret b =>
    obtain ⟨rfl, rfl⟩ := pure_eq_ok.1 hs
    exact ⟨[], .ret b, .nil s⟩
  | fail e => exact absurd hs throw_ne_ok
  | chain w c k ih =>
    obtain ⟨x, s₁, hx, hs⟩ := bind_eq_ok.1 hs
    obtain ⟨rfl, hadv⟩ := addChain_advance (mapErr_eq_ok.1 hx)
    obtain ⟨es, hex, hadv'⟩ := ih _ hs
    exact ⟨_, .chain hex, hadv.cons hadv'⟩
  | set w set els k ih =>
    obtain ⟨x, s₁, hx, hs⟩ := bind_eq_ok.1 hs
    obtain ⟨id, fresh, hid, rfl, hadv⟩ := updateSet_advance (mapErr_eq_ok.1 hx)
    obtain ⟨es, hex, hadv'⟩ := ih _ hs
    exact ⟨_, .set id fresh hid hex, hadv.cons hadv'⟩
  | rule w r action force k ih =>
    obtain ⟨x, s₁, hx, hs⟩ := bind_eq_ok.1 hs
    have hadv := updateRule_advance (mapErr_eq_ok.1 hx)
    obtain ⟨es, hex, hadv'⟩ := ih _ hs
    exact ⟨_, .rule x hex, hadv.cons hadv'⟩

end Render

end MultiNetPolicy
