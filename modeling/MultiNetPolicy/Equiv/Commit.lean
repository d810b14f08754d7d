import MultiNetPolicy.Equiv.Exec

/-!
# What a batch does to the rules

The rules of a chain after a batch are the inserted ones, newest first, the old ones that were not
deleted, and the appended ones (`Layered`, `Layered.events`).  Only forced updates delete, and they
delete the one rule that was found (`Kernel.inView_filter_found`).
-/

namespace MultiNetPolicy

open ByteString

/-! ### Contents of a chain -/

namespace Rule

/-- What a listing shows of a rule, without its handle. -/
def content (r : Rule) : Rule := r.listed.erase

@[simp] theorem content_erase (r : Rule) : r.erase.content = r.content := rfl

@[simp] theorem inChain_erase (t c : Str) (r : Rule) : r.erase.inChain t c = r.inChain t c := rfl

@[simp] theorem inChain_listed (t c : Str) (r : Rule) : r.listed.inChain t c = r.inChain t c := rfl

/-- A rule is in one chain of one table. -/
theorem inChain_iff {t c : Str} {r : Rule} : r.inChain t c = true ↔ r.table = t ∧ r.chain = c := by
  simp [inChain]

end Rule

/-- The contents of a chain, among some rules. -/
def inView (t c : Str) (l : List Rule) : List Rule := (l.filter (Rule.inChain t c)).map Rule.content

/-- What a listing shows of a chain. -/
theorem Kernel.chainRules_eq (k : Kernel) (t c : Str) : k.chainRules t c = inView t c k.rules := by
  unfold chainRules getRules inView
  rw [List.map_map]
  rfl

@[simp] theorem inView_nil (t c : Str) : inView t c [] = [] := rfl

@[simp] theorem inView_append (t c : Str) (l₁ l₂ : List Rule) :
    inView t c (l₁ ++ l₂) = inView t c l₁ ++ inView t c l₂ := by
  simp [inView]

@[simp] theorem inView_reverse (t c : Str) (l : List Rule) :
    inView t c l.reverse = (inView t c l).reverse := by
  simp [inView]

@[simp] theorem inView_map_erase (t c : Str) (l : List Rule) :
    inView t c (l.map Rule.erase) = inView t c l := by
  unfold inView
  rw [List.filter_map, List.map_map]
  rfl

/-! ### Layers -/

/-- The rules of `k'` are new ones, old ones of `k` that satisfy `p`, and new ones again. -/
def Layered (k k' : Kernel) (ins : List Rule) (p : Rule → Bool) (app : List Rule) : Prop :=
  k.nextHandle ≤ k'.nextHandle ∧ ∃ front back,
    k'.rules = front ++ k.rules.filter p ++ back ∧
    front.map Rule.erase = ins ∧ back.map Rule.erase = app ∧
    (∀ r ∈ front, k.nextHandle ≤ r.handle) ∧ ∀ r ∈ back, k.nextHandle ≤ r.handle

/-- Messages that leave the rules alone. -/
def Op.isQuiet : Op → Bool
  | .addTable _ => true
  | .addChain _ => true
  | .addSet _ => true
  | .addElements _ _ _ => true
  | .deleteElements _ _ _ => true
  | .delSet _ _ => true
  | _ => false

/-- Messages that are not about rules leave the rules alone. -/
theorem Kernel.apply_isQuiet {op : Op} (hop : op.isQuiet = true) (k : Kernel) :
    (k.apply op).rules = k.rules ∧ (k.apply op).nextHandle = k.nextHandle := by
  cases op with
  | addTable t => rw [apply]; split <;> exact ⟨rfl, rfl⟩
  | addChain c => rw [apply]; split <;> exact ⟨rfl, rfl⟩
  | addSet s => rw [apply]; split <;> exact ⟨rfl, rfl⟩
  | addElements t s els => exact ⟨rfl, rfl⟩
  | deleteElements t s els => exact ⟨rfl, rfl⟩
  | delSet t s => exact ⟨rfl, rfl⟩
  | delChain t c => cases hop
  | addRule r => cases hop
  | insertRule r => cases hop
  | delRule t c n => cases hop

theorem Kernel.commit_isQuiet : ∀ {ops : List Op}, (∀ op ∈ ops, op.isQuiet = true) → ∀ k : Kernel,
    (k.commit ops).rules = k.rules ∧ (k.commit ops).nextHandle = k.nextHandle
  | [], _, _ => ⟨rfl, rfl⟩
  | op :: ops, h, k => by
    obtain ⟨h₁, h₂⟩ := commit_isQuiet (fun o ho => h o (List.mem_cons_of_mem _ ho)) (k.apply op)
    obtain ⟨h₃, h₄⟩ := apply_isQuiet (h op (List.mem_cons_self ..)) k
    exact ⟨h₁.trans h₃, h₂.trans h₄⟩

namespace Layered

variable {k k' : Kernel} {ins app : List Rule} {p : Rule → Bool}

/-- Such messages in between. -/
theorem quiet (hl : Layered k k' ins p app) (ops : List Op) (h : ∀ op ∈ ops, op.isQuiet = true) :
    Layered k (k'.commit ops) ins p app := by
  obtain ⟨hn, front, back, hr, hrest⟩ := hl
  obtain ⟨h₁, h₂⟩ := Kernel.commit_isQuiet h k'
  exact ⟨by rw [h₂]; exact hn, front, back, by rw [h₁]; exact hr, hrest⟩

/-- A rule is added behind the others. -/
theorem addRule (hl : Layered k k' ins p app) (r : Rule) :
    Layered k (k'.apply (.addRule r)) ins p (app ++ [r.erase]) := by
  obtain ⟨hn, front, back, hr, hi, ha, hf, hb⟩ := hl
  refine ⟨Nat.le_succ_of_le hn, front, back ++ [{ r with handle := k'.nextHandle }], ?_, hi, ?_, hf,
    ?_⟩
  · change k'.rules ++ _ = _
    rw [hr, List.append_assoc, List.append_assoc]
  · rw [List.map_append, ha]
    rfl
  · intro x hx
    rcases List.mem_append.1 hx with hx | hx
    · exact hb x hx
    · obtain rfl := List.mem_singleton.1 hx
      exact hn

/-- A rule is inserted before the others. -/
theorem insertRule (hl : Layered k k' ins p app) (r : Rule) :
    Layered k (k'.apply (.insertRule r)) (r.erase :: ins) p app := by
  obtain ⟨hn, front, back, hr, hi, ha, hf, hb⟩ := hl
  refine ⟨Nat.le_succ_of_le hn, { r with handle := k'.nextHandle } :: front, back, ?_, ?_, ha, ?_,
    hb⟩
  · change _ :: k'.rules = _
    rw [hr, List.cons_append, List.cons_append]
  · rw [List.map_cons, hi]
    rfl
  · intro x hx
    rcases List.mem_cons.1 hx with rfl | hx
    · exact hn
    · exact hf x hx

/-- Deleting a listed rule deletes it alone: handles are unique, and new ones are larger. -/
theorem delRule (wf : k.WF) (hl : Layered k k' ins p app) {t c : Str} {e : Rule}
    (he : e ∈ k.getRules t c) :
    Layered k (k'.apply (.delRule e.table e.chain e.handle)) ins
      (fun r => p r && r.handle != e.handle)
      app := by
  obtain ⟨hn, front, back, hr, hi, ha, hf, hb⟩ := hl
  obtain ⟨r₀, hr₀, rfl⟩ := List.mem_map.1 he
  obtain ⟨hr₀, hc₀⟩ := List.mem_filter.1 hr₀
  have hlt : r₀.listed.handle < k.nextHandle := wf.handle_lt r₀ hr₀
  -- what this batch has added has handles beyond those of the committed rules
  have hkeep : ∀ {l : List Rule}, (∀ r ∈ l, k.nextHandle ≤ r.handle) →
      (l.filter fun r => !(r.inChain r₀.listed.table r₀.listed.chain &&
        r.handle == r₀.listed.handle)) = l := by
    intro l hl
    refine List.filter_eq_self.2 fun r hmem => ?_
    have : r.handle ≠ r₀.listed.handle := by
      have := hl r hmem
      omega
    simp [this]
  refine ⟨hn, front, back, ?_, hi, ha, hf, hb⟩
  change (k'.rules.filter _) = _
  rw [hr, List.filter_append, List.filter_append, hkeep hf, hkeep hb, List.filter_filter]
  congr 2
  refine List.filter_congr fun r hmem => ?_
  by_cases hh : r.handle = r₀.listed.handle
  · obtain rfl : r = r₀ := List.inj_on_of_nodup_map wf.handles_nodup hmem hr₀ hh
    simp [Rule.inChain, Rule.listed]
  · have hne : (r.handle == r₀.listed.handle) = false := beq_false_of_ne hh
    simp [hne, bne]

end Layered

/-! ### Layers of an execution -/

/-- The rules that the calls queue with an action. -/
def addedBy (action : RuleAction) (es : List Event) : List Rule :=
  es.filterMap fun
    | .rule r a force isNew => if a = action ∧ (force ∨ isNew) then some r else none
    | _ => none

/-- The handles of the rules that the calls delete. -/
def deletedBy (k : Kernel) (es : List Event) : List Nat :=
  es.filterMap fun
    | .rule r _ force _ => if force then (k.findRule r).map Rule.handle else none
    | _ => none

theorem addedBy_append (action : RuleAction) (es₁ es₂ : List Event) :
    addedBy action (es₁ ++ es₂) = addedBy action es₁ ++ addedBy action es₂ :=
  List.filterMap_append

theorem addedBy_cons (action : RuleAction) (e : Event) (es : List Event) :
    addedBy action (e :: es) = addedBy action [e] ++ addedBy action es :=
  addedBy_append action [e] es

theorem deletedBy_append (k : Kernel) (es₁ es₂ : List Event) :
    deletedBy k (es₁ ++ es₂) = deletedBy k es₁ ++ deletedBy k es₂ :=
  List.filterMap_append

theorem deletedBy_cons (k : Kernel) (e : Event) (es : List Event) :
    deletedBy k (e :: es) = deletedBy k [e] ++ deletedBy k es :=
  deletedBy_append k [e] es

theorem Layered.congr {k k' : Kernel} {ins ins' app app' : List Rule} {p p' : Rule → Bool}
    (hl : Layered k k' ins p app) (hi : ins = ins') (hp : ∀ r, p r = p' r) (ha : app = app') :
    Layered k k' ins' p' app' := by
  subst hi ha
  rw [← funext hp]
  exact hl

/-- One call. -/
theorem Layered.event {k k' : Kernel} (wf : k.WF) {e : Event} {ops : List Op}
    (he : e.Queues k ops) {ins app : List Rule} {p : Rule → Bool} (hl : Layered k k' ins p app) :
    Layered k (k'.commit ops) (((addedBy .insertRule [e]).map Rule.erase).reverse ++ ins)
      (fun r => p r && !(deletedBy k [e]).contains r.handle)
      (app ++ (addedBy .addRule [e]).map Rule.erase) := by
  cases e with
  | chain c =>
    refine (hl.quiet ops fun op hop => ?_).congr rfl (by simp [deletedBy]) (by simp [addedBy])
    cases he.sends op hop
    rfl
  | set s els fresh =>
    refine (hl.quiet ops fun op hop => ?_).congr rfl (by simp [deletedBy]) (by simp [addedBy])
    cases he.sends op hop <;> rfl
  | rule r action force isNew =>
    unfold Event.Queues at he
    cases hf : k.findRule r with
    | none =>
      simp only [hf] at he
      obtain ⟨rfl, rfl⟩ := he
      cases action with
      | addRule =>
        exact (hl.addRule r).congr (by simp [addedBy]) (by simp [deletedBy, hf]) (by simp [addedBy])
      | insertRule =>
        exact (hl.insertRule r).congr (by simp [addedBy]) (by simp [deletedBy, hf])
          (by simp [addedBy])
    | some x =>
      simp only [hf] at he
      obtain ⟨rfl, rfl⟩ := he
      have hx : x ∈ k.getRules r.table r.chain := List.mem_of_find?_eq_some hf
      -- a rule that is found is moved when the call is forced, and else left where it is
      cases force with
      | false => exact hl.congr (by simp [addedBy]) (by simp [deletedBy]) (by simp [addedBy])
      | true =>
        have hdel : ∀ q, (p q && q.handle != x.handle) =
            (p q && !(deletedBy k [.rule r action true false]).contains q.handle) := by
          intro q
          simp only [deletedBy, List.filterMap_cons, if_true, hf, Option.map_some,
            List.filterMap_nil, List.contains_cons, List.contains_nil, Bool.or_false]
          rfl
        cases action with
        | addRule =>
          exact ((hl.delRule wf hx).addRule r).congr (by simp [addedBy]) hdel (by simp [addedBy])
        | insertRule =>
          exact ((hl.delRule wf hx).insertRule r).congr (by simp [addedBy]) hdel (by simp [addedBy])

/-- **The rules after the calls of an execution.** -/
theorem Layered.events {k : Kernel} (wf : k.WF) : ∀ {es : List Event} {ops : List Op} {k' : Kernel}
    {ins app : List Rule} {p : Rule → Bool}, Queued k es ops → Layered k k' ins p app →
    Layered k (k'.commit ops) (((addedBy .insertRule es).map Rule.erase).reverse ++ ins)
      (fun r => p r && !(deletedBy k es).contains r.handle)
      (app ++ (addedBy .addRule es).map Rule.erase)
  | [], ops, k', ins, app, p, hq, hl => by
    obtain ⟨_, ⟨⟩, rfl⟩ := hq
    exact hl.congr (by simp [addedBy]) (by simp [deletedBy]) (by simp [addedBy])
  | e :: es, ops, k', ins, app, p, hq, hl => by
    obtain ⟨ops₁, ops₂, he, hq', rfl⟩ := hq.cons_inv
    rw [Kernel.commit_append]
    refine (Layered.events wf hq' (hl.event wf he)).congr ?_ ?_ ?_
    · rw [addedBy_cons _ e es]
      simp
    · intro r
      rw [deletedBy_cons _ e es]
      simp [Bool.and_assoc]
    · rw [addedBy_cons _ e es]
      simp

/-- **A chain behind a batch**: what was inserted, what was kept, what was added. -/
theorem Layered.chainRules {k k' : Kernel} {ins app : List Rule} {p : Rule → Bool}
    (hl : Layered k k' ins p app) (t c : Str) :
    k'.chainRules t c = inView t c ins ++ inView t c (k.rules.filter p) ++ inView t c app := by
  obtain ⟨-, front, back, hr, rfl, rfl, -⟩ := hl
  rw [Kernel.chainRules_eq, hr]
  simp

/-! ### Finding rules -/

/-- A rule of expressions that `ruleEqual` can compare. -/
def Rule.Plain (r : Rule) : Prop := ∀ x ∈ r.exprs, exprEqual x x = true

theorem zip_all_self : ∀ {l : List Expr}, (∀ x ∈ l, exprEqual x x = true) →
    ((l.zip l).all fun (x, y) => exprEqual x y) = true
  | [], _ => rfl
  | x :: xs, h => by
    rw [List.zip_cons_cons, List.all_cons, Bool.and_eq_true]
    exact ⟨h x (List.mem_cons_self ..), zip_all_self fun y hy => h y (List.mem_cons_of_mem _ hy)⟩

/-- Rules of the daemon are compared up to what the kernel assigns. -/
theorem ruleEqual_iff {a b : Rule} (ha : a.Plain) : ruleEqual a b = true ↔ a.erase = b.erase := by
  refine ⟨erase_eq_of_ruleEqual, fun h => ?_⟩
  simp only [Rule.erase, Rule.mk.injEq, true_and] at h
  obtain ⟨ht, hc, hu, he⟩ := h
  unfold ruleEqual
  rw [← ht, ← hc, ← hu, ← he, zip_all_self ha]
  simp

/-- A rule is found when its content is in its chain. -/
theorem Kernel.findRule_isSome_iff {k : Kernel} {r : Rule} (hr : r.Plain) :
    (k.findRule r).isSome = true ↔ r.erase ∈ k.chainRules r.table r.chain := by
  unfold findRule chainRules
  rw [List.find?_isSome, List.mem_map]
  simp only [ruleEqual_iff hr, eq_comm]

/-- A rule is missing when its chain does not list it. -/
theorem Kernel.findRule_eq_none_iff {k : Kernel} {r : Rule} (hr : r.Plain) :
    k.findRule r = none ↔ r.erase ∉ k.chainRules r.table r.chain := by
  rw [← findRule_isSome_iff hr, Option.not_isSome_iff_eq_none]

/-- Without the rule that was found, its chain has lost the first rule of that content. -/
theorem Kernel.inView_filter_found {k : Kernel} (wf : k.WF) {r e : Rule} (hr : r.Plain)
    (hf : k.findRule r = some e) :
    inView r.table r.chain (k.rules.filter fun x => x.handle != e.handle) =
      (k.chainRules r.table r.chain).erase r.erase := by
  unfold findRule getRules at hf
  rw [List.find?_map, Option.map_eq_some_iff] at hf
  obtain ⟨r₀, hf, rfl⟩ := hf
  obtain ⟨hp, l₁, l₂, hl, hnot⟩ := List.find?_eq_some_iff_append.1 hf
  have he : r.erase = r₀.content := (ruleEqual_iff hr).1 hp
  have hnd : ((k.rules.filter (Rule.inChain r.table r.chain)).map Rule.handle).Nodup :=
    (List.filter_sublist.map _).nodup wf.handles_nodup
  -- handles are unique, so deleting by handle deletes this rule only
  have hne : ∀ x ∈ l₁ ++ l₂, x.handle ≠ r₀.handle := by
    rw [hl, List.map_append, List.map_cons] at hnd
    intro x hx hh
    have := List.nodup_middle.1 hnd
    rw [List.nodup_cons, ← List.map_append] at this
    exact this.1 (List.mem_map.2 ⟨x, hx, hh⟩)
  have hkeep : ∀ {l : List Rule}, (∀ x ∈ l, x ∈ l₁ ++ l₂) →
      l.filter (fun x => x.handle != r₀.listed.handle) = l := by
    intro l hsub
    refine List.filter_eq_self.2 fun x hx => ?_
    exact bne_iff_ne.2 (hne x (hsub x hx))
  have hself : (r₀.handle != r₀.listed.handle) = false := bne_self_eq_false' _
  -- and it is the first one of its kind, as `erase` wants it
  have hfirst : r₀.content ∉ l₁.map Rule.content := by
    rw [← he, List.mem_map]
    rintro ⟨x, hx, hxe⟩
    have heq : ruleEqual r x.listed = true := (ruleEqual_iff hr).2 hxe.symm
    have hx' := hnot x hx
    simp [heq] at hx'
  rw [chainRules_eq]
  unfold inView
  rw [List.filter_comm, hl, List.filter_append, List.filter_cons, hself,
    hkeep fun x hx => List.mem_append_left _ hx, hkeep fun x hx => List.mem_append_right _ hx,
    if_neg Bool.false_ne_true, List.map_append, List.map_append, List.map_cons, he,
    List.erase_append_right _ hfirst, List.erase_cons_head]

end MultiNetPolicy
