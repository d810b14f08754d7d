import MultiNetPolicy.Equiv.Sets
import MultiNetPolicy.Lib.Relational
import MultiNetPolicy.Server.Apply

/-!
# Runs that differ in the order of set elements

Two batches are alike when they have the same messages up to the order of the elements that are
added to sets (`Op.Alike`), two rulesets when they have the same objects and every set the same
contents (`Kernel.Alike`).

* `Kernel.Alike.commit`: alike batches keep rulesets alike.
* `Lockstep K x y`: from alike states the programs `x` and `y` end in alike states with the same
  result, or both fail; `lockstep_cleanup` is the cleanup.
* `Render.Sim R p q`: the rendering programs make the same calls up to the order of elements, and
  `related_run` runs them side by side.
-/

namespace MultiNetPolicy

open ByteString StateExcept

/-! ### Batches and rulesets -/

/-- The same elements, in any order and any number. -/
def SameElements (els els' : List SetElement) : Prop := ∀ x, x ∈ els ↔ x ∈ els'

/-- Permuted lists are empty together. -/
theorem SameElements.nil_iff {els els' : List SetElement} (h : SameElements els els') :
    els = [] ↔ els' = [] := by
  rw [List.eq_nil_iff_forall_not_mem, List.eq_nil_iff_forall_not_mem]
  exact forall_congr' fun x => not_congr (h x)

/-- The same message up to the order of added elements. -/
inductive Op.Alike : Op → Op → Prop
  | refl (op : Op) : Op.Alike op op
  | addElements (t n : Str) {els els' : List SetElement} (h : SameElements els els') :
      Op.Alike (.addElements t n els) (.addElements t n els')

theorem forall₂_alike_refl (ops : List Op) : List.Forall₂ Op.Alike ops ops :=
  List.forall₂_same.2 fun op _ => .refl op

/-- Alike lists of elements give alike messages. -/
theorem alike_elementOps (t n : Str) {els els' : List SetElement} (h : SameElements els els') :
    List.Forall₂ Op.Alike (Conn.elementOps (.addElements t n) els)
      (Conn.elementOps (.addElements t n) els') := by
  unfold Conn.elementOps
  by_cases hnil : els = []
  · rw [if_pos hnil, if_pos (h.nil_iff.1 hnil)]
    exact .nil
  · rw [if_neg hnil, if_neg (mt h.nil_iff.2 hnil)]
    exact .cons (.addElements t n h) .nil

/-- Where an element is and what names it there. -/
def StoredElement.place (e : StoredElement) : Str × Str × Str × Bool :=
  (e.table, e.set, e.elem.key, e.elem.intervalEnd)

/-- The same objects, and in every set the same contents. -/
structure Kernel.Alike (k k' : Kernel) : Prop where
  tables : k.tables = k'.tables
  chains : k.chains = k'.chains
  rules : k.rules = k'.rules
  sets : k.sets = k'.sets
  nextHandle : k.nextHandle = k'.nextHandle
  places : ∀ x, x ∈ k.elements.map StoredElement.place ↔ x ∈ k'.elements.map StoredElement.place

/-- Alike rulesets have the same contents in every set. -/
theorem Kernel.Alike.contents {k k' : Kernel} (h : k.Alike k') (t n : Str) (x : Str × Bool) :
    x ∈ contentsOf (k.getElements t n) ↔ x ∈ contentsOf (k'.getElements t n) := by
  have hplace : ∀ k : Kernel, x ∈ contentsOf (k.getElements t n) ↔
      (t, n, x.1, x.2) ∈ k.elements.map StoredElement.place := by
    intro k
    unfold Kernel.getElements
    rw [mem_contentsOf, List.mem_map]
    constructor
    · rintro ⟨_, hel, h₁, h₂⟩
      obtain ⟨e, he, rfl⟩ := List.mem_map.1 hel
      obtain ⟨he, hin⟩ := List.mem_filter.1 he
      obtain ⟨ht, hn⟩ := inSet_iff.1 hin
      exact ⟨e, he, by rw [StoredElement.place, ht, hn, h₁, h₂]⟩
    · rintro ⟨e, he, hx⟩
      simp only [StoredElement.place, Prod.mk.injEq] at hx
      obtain ⟨ht, hn, h₁, h₂⟩ := hx
      exact ⟨e.elem, List.mem_map_of_mem (List.mem_filter.2 ⟨he, inSet_iff.2 ⟨ht, hn⟩⟩), h₁, h₂⟩
  rw [hplace, hplace]
  exact h.places _

/-- Filtering by a condition on places keeps the same places. -/
theorem places_filter {l l' : List StoredElement} {p : StoredElement → Bool}
    (hp : ∀ e e', e.place = e'.place → p e = p e')
    (h : ∀ x, x ∈ l.map StoredElement.place ↔ x ∈ l'.map StoredElement.place)
    (x : Str × Str × Str × Bool) :
    x ∈ (l.filter p).map StoredElement.place ↔ x ∈ (l'.filter p).map StoredElement.place := by
  have hmem : ∀ {l l' : List StoredElement},
      (∀ x, x ∈ l.map StoredElement.place → x ∈ l'.map StoredElement.place) →
      x ∈ (l.filter p).map StoredElement.place → x ∈ (l'.filter p).map StoredElement.place := by
    intro l l' hsub hx
    obtain ⟨e, he, rfl⟩ := List.mem_map.1 hx
    obtain ⟨he, hpe⟩ := List.mem_filter.1 he
    obtain ⟨e', he', heq⟩ := List.mem_map.1 (hsub _ (List.mem_map_of_mem he))
    rw [← heq]
    exact List.mem_map_of_mem (List.mem_filter.2 ⟨he', by rw [hp e' e heq, hpe]⟩)
  exact ⟨hmem fun x => (h x).1, hmem fun x => (h x).2⟩

/-- Elements in the same place are in the same set. -/
theorem inSet_congr {e e' : StoredElement} (h : e.place = e'.place) (t n : Str) :
    e.inSet t n = e'.inSet t n := by
  simp only [StoredElement.place, Prod.mk.injEq] at h
  rw [StoredElement.inSet, StoredElement.inSet, h.1, h.2.1]

theorem sameAs_congr {e e' : StoredElement} (h : e.place = e'.place) (x : SetElement) :
    e.sameAs x = e'.sameAs x := by
  simp only [StoredElement.place, Prod.mk.injEq] at h
  rw [StoredElement.sameAs, StoredElement.sameAs, h.2.2.1, h.2.2.2]

/-- The places after elements have been added to a set. -/
theorem mem_places_addElements {t n : Str} {x : Str × Str × Str × Bool} :
    ∀ {els : List SetElement} {l : List StoredElement},
    x ∈ (els.foldl (Kernel.addElement t n) l).map StoredElement.place ↔
      x ∈ l.map StoredElement.place ∨ ∃ e ∈ els, x = (t, n, e.key, e.intervalEnd)
  | [], l => by simp
  | d :: els, l => by
    have hstep : x ∈ (Kernel.addElement t n l d).map StoredElement.place ↔
        x ∈ l.map StoredElement.place ∨ x = (t, n, d.key, d.intervalEnd) := by
      unfold Kernel.addElement
      split
      · rename_i hany
        -- the element is there already, under the place of another
        obtain ⟨e, he, hsame⟩ := List.any_eq_true.1 hany
        rw [Bool.and_eq_true] at hsame
        obtain ⟨ht, hn⟩ := inSet_iff.1 hsame.1
        obtain ⟨h₁, h₂⟩ := sameAs_iff.1 hsame.2
        refine ⟨.inl, ?_⟩
        rintro (hx | rfl)
        · exact hx
        · exact List.mem_map.2 ⟨e, he, by rw [StoredElement.place, ht, hn, h₁, h₂]⟩
      · rw [List.map_append, List.mem_append, List.map_singleton, List.mem_singleton]
        rfl
    rw [List.foldl_cons, mem_places_addElements, hstep, or_assoc]
    simp only [List.mem_cons, exists_eq_or_imp]

namespace Kernel.Alike

theorem refl (k : Kernel) : k.Alike k := ⟨rfl, rfl, rfl, rfl, rfl, fun _ => Iff.rfl⟩

/-- Rulesets that are alike in both cases. -/
theorem ite {a b a' b' : Kernel} (c : Bool) (h : a.Alike b) (h' : a'.Alike b') :
    (if c then a else a').Alike (if c then b else b') := by
  cases c with
  | true => exact h
  | false => exact h'

/-- Alike messages keep rulesets alike. -/
theorem apply {k k' : Kernel} (h : k.Alike k') {op op' : Op} (hop : op.Alike op') :
    (k.apply op).Alike (k'.apply op') := by
  obtain ⟨tables, chains, rules, sets, elements, nextHandle⟩ := k
  obtain ⟨_, _, _, _, elements', _⟩ := k'
  obtain ⟨rfl, rfl, rfl, rfl, rfl, hplaces⟩ := h
  -- only the order in which elements are added can differ
  cases hop with
  | addElements t n hels =>
    refine ⟨rfl, rfl, rfl, rfl, rfl, fun x => ?_⟩
    change x ∈ (List.foldl _ elements _).map _ ↔ x ∈ (List.foldl _ elements' _).map _
    rw [mem_places_addElements, mem_places_addElements]
    exact or_congr (hplaces x) (exists_congr fun e => and_congr_left fun _ => hels e)
  | refl =>
    cases op with
    | addTable t =>
      exact ite _ ⟨rfl, rfl, rfl, rfl, rfl, hplaces⟩ ⟨rfl, rfl, rfl, rfl, rfl, hplaces⟩
    | addChain c =>
      exact ite _ ⟨rfl, rfl, rfl, rfl, rfl, hplaces⟩ ⟨rfl, rfl, rfl, rfl, rfl, hplaces⟩
    | addSet s => exact ite _ ⟨rfl, rfl, rfl, rfl, rfl, hplaces⟩ ⟨rfl, rfl, rfl, rfl, rfl, hplaces⟩
    | delChain t c => exact ⟨rfl, rfl, rfl, rfl, rfl, hplaces⟩
    | addRule r => exact ⟨rfl, rfl, rfl, rfl, rfl, hplaces⟩
    | insertRule r => exact ⟨rfl, rfl, rfl, rfl, rfl, hplaces⟩
    | delRule t c n => exact ⟨rfl, rfl, rfl, rfl, rfl, hplaces⟩
    | addElements t n els =>
      refine ⟨rfl, rfl, rfl, rfl, rfl, fun x => ?_⟩
      change x ∈ (List.foldl _ elements _).map _ ↔ x ∈ (List.foldl _ elements' _).map _
      rw [mem_places_addElements, mem_places_addElements]
      exact or_congr_left (hplaces x)
    -- deletions are by key and flag, which places tell
    | deleteElements t n els =>
      refine ⟨rfl, rfl, rfl, rfl, rfl, places_filter (fun e e' he => ?_) hplaces⟩
      have hany : els.any e.sameAs = els.any e'.sameAs := by
        rw [funext (sameAs_congr he)]
      rw [inSet_congr he, hany]
    | delSet t n =>
      refine ⟨rfl, rfl, rfl, rfl, rfl, places_filter (fun e e' he => ?_) hplaces⟩
      rw [inSet_congr he]

/-- Alike batches are legal together. -/
theorem legal {k k' : Kernel} (h : k.Alike k') {op op' : Op} (hop : op.Alike op') :
    k.legal op = k'.legal op' := by
  have hchain : ∀ t c, k.hasChain t c = k'.hasChain t c := by
    intro t c
    rw [Kernel.hasChain, Kernel.hasChain, Kernel.findChain, Kernel.findChain, h.chains]
  cases hop with
  | addElements t n hels => rfl
  | refl =>
    cases op with
    | addRule r => exact hchain _ _
    | insertRule r => exact hchain _ _
    | _ => rfl

/-- Alike batches keep rulesets alike. -/
theorem commit {k k' : Kernel} (h : k.Alike k') {ops ops' : List Op}
    (hops : List.Forall₂ Op.Alike ops ops') : (k.commit ops).Alike (k'.commit ops') := by
  induction hops generalizing k k' with
  | nil => exact h
  | cons hop _ ih => exact ih (h.apply hop)

/-- Alike rulesets admit alike batches. -/
theorem admits {k k' : Kernel} (h : k.Alike k') {ops ops' : List Op}
    (hops : List.Forall₂ Op.Alike ops ops') : k.admits ops = k'.admits ops' := by
  induction hops generalizing k k' with
  | nil => rfl
  | cons hop _ ih => rw [Kernel.admits, Kernel.admits, h.legal hop, ih (h.apply hop)]

end Kernel.Alike

/-! ### States and programs -/

/-- Two states of a run: alike batches, rulesets related by `K`, and the same bookkeeping. -/
structure State.Alike (K : Kernel → Kernel → Prop) (s t : State) : Prop where
  kernel : K s.kernel t.kernel
  messages : List.Forall₂ Op.Alike s.messages t.messages
  lastID : s.lastID = t.lastID
  queries : s.queries = t.queries
  rules : s.rules = t.rules
  sets : s.sets = t.sets
  chains : s.chains = t.chains
  requested : s.requested = t.requested

theorem State.Alike.of_eq {K : Kernel → Kernel → Prop} (hK : ∀ k, K k k) {s t : State} (h : s = t) :
    s.Alike K t := by
  subst h
  exact ⟨hK _, forall₂_alike_refl _, rfl, rfl, rfl, rfl, rfl, rfl⟩

/-- A weaker relation between the rulesets. -/
theorem State.Alike.mono {K K' : Kernel → Kernel → Prop} {s t : State} (h : s.Alike K t)
    (hK : K s.kernel t.kernel → K' s.kernel t.kernel) : s.Alike K' t :=
  ⟨hK h.kernel, h.messages, h.lastID, h.queries, h.rules, h.sets, h.chains, h.requested⟩

/-- From alike states both programs return the same or both fail, in alike states. -/
def Lockstep {α : Type} (K : Kernel → Kernel → Prop) (x y : M α) : Prop :=
  Related (State.Alike K) x y (fun a b s t => a = b ∧ s.Alike K t) (State.Alike K)

section

variable {α β : Type} {K : Kernel → Kernel → Prop} {h : Host}

namespace Lockstep

theorem pure (a : α) : Lockstep K (pure a) (pure a) := Related.pure fun _ _ hst => ⟨rfl, hst⟩

theorem throw (e e' : Error) : Lockstep K (throw e : M α) (throw e') :=
  Related.throw fun _ _ hst => hst

/-- One command after the other. -/
theorem bind {x y : M α} {f g : α → M β} (hxy : Lockstep K x y)
    (hfg : ∀ a, Lockstep K (f a) (g a)) :
    Lockstep K (x >>= f) (y >>= g) := by
  refine Related.bind hxy fun a b s t hst => ?_
  rw [← hst.1]
  exact hfg a s t hst.2

theorem ite {c d : Prop} [Decidable c] [Decidable d] {x y x' y' : M α} (hcd : c ↔ d)
    (hxy : c → Lockstep K x y) (hxy' : ¬ c → Lockstep K x' y') :
    Lockstep K (if c then x else x') (if d then y else y') := Related.ite hcd hxy hxy'

theorem foldlM {f : β → α → M β} (hf : ∀ b a, Lockstep K (f b a) (f b a)) (l : List α) (b : β) :
    Lockstep K (l.foldlM f b) (l.foldlM f b) := Related.foldlM hf l b

/-- Commands that read the state. -/
theorem get {f g : State → M α} (hfg : ∀ s t, s.Alike K t → Lockstep K (f s) (g t)) :
    Lockstep K (MonadState.get >>= f) (MonadState.get >>= g) :=
  fun s t hst => hfg s t hst s t hst

/-- Errors may have different texts. -/
theorem mapErr {x y : M α} (hxy : Lockstep K x y) (f g : Error → Error) :
    Lockstep K (mapErr f x) (mapErr g y) := by
  intro s t hst
  have hxy := hxy s t hst
  unfold MultiNetPolicy.mapErr
  generalize x s = r at hxy ⊢
  generalize y t = r' at hxy ⊢
  cases hxy with
  | ok hq => exact .ok hq
  | error hE => exact .error hE

theorem wrapErr {x y : M α} (hxy : Lockstep K x y) (c c' : Str) :
    Lockstep K (wrapErr c x) (wrapErr c' y) := hxy.mapErr _ _

end Lockstep

/-! ### Requests and messages -/

/-- Listings fail together. -/
theorem lockstep_request : Lockstep K (Conn.request h) (Conn.request h) := by
  intro s t hst
  refine .ok ⟨?_, ?_⟩
  · rw [hst.queries]
  · exact ⟨hst.kernel, hst.messages, hst.lastID, by rw [hst.queries], hst.rules, hst.sets,
      hst.chains,
      hst.requested⟩

/-- A listing of what is the same in related rulesets. -/
theorem lockstep_query {f : Kernel → α} (hf : ∀ k k', K k k' → f k = f k') :
    Lockstep K (Conn.query h f) (Conn.query h f) := by
  refine lockstep_request.bind fun ok => Lockstep.get fun s t hst => ?_
  rw [hf _ _ hst.kernel]
  exact Lockstep.ite Iff.rfl (fun _ => Lockstep.pure _) fun _ => Lockstep.throw _ _

/-- Batches that are alike. -/
theorem lockstep_queue {ops ops' : List Op} (hops : List.Forall₂ Op.Alike ops ops') :
    Lockstep K (Conn.queue ops) (Conn.queue ops') :=
  Related.modify fun _ _ hst => ⟨rfl, hst.kernel, List.rel_append hst.messages hops, hst.lastID,
    hst.queries, hst.rules, hst.sets, hst.chains, hst.requested⟩

theorem lockstep_queue_same (ops : List Op) : Lockstep K (Conn.queue ops) (Conn.queue ops) :=
  lockstep_queue (forall₂_alike_refl ops)

theorem lockstep_allocateTransactionID :
    Lockstep K Conn.allocateTransactionID Conn.allocateTransactionID := by
  intro s t hst
  refine .ok ⟨?_, ?_⟩
  · rw [hst.lastID]
  · exact ⟨hst.kernel, hst.messages, by rw [hst.lastID], hst.queries, hst.rules, hst.sets,
      hst.chains, hst.requested⟩

theorem lockstep_trackRule (key : Str) : Lockstep K (trackRule key) (trackRule key) :=
  Related.modify fun _ _ hst => ⟨rfl, hst.kernel, hst.messages, hst.lastID, hst.queries,
    by rw [hst.rules], hst.sets, hst.chains, hst.requested⟩

theorem lockstep_trackSet (key : Str) : Lockstep K (trackSet key) (trackSet key) :=
  Related.modify fun _ _ hst => ⟨rfl, hst.kernel, hst.messages, hst.lastID, hst.queries,
    hst.rules, by rw [hst.sets], hst.chains, hst.requested⟩

theorem lockstep_trackChain (key : Str) : Lockstep K (trackChain key) (trackChain key) :=
  Related.modify fun _ _ hst => ⟨rfl, hst.kernel, hst.messages, hst.lastID, hst.queries,
    hst.rules, hst.sets, by rw [hst.chains], hst.requested⟩

end

/-! ### The three calls -/

section

variable (h : Host)

/-- The first of the three calls. -/
theorem lockstep_addChain (c : Chain) : Lockstep Eq (addChain h c) (addChain h c) := by
  have hlist : Lockstep Eq (Conn.listChain h c.table (shortName c.name))
      (Conn.listChain h c.table (shortName c.name)) := by
    refine lockstep_request.bind fun ok => Lockstep.get fun s t hst => ?_
    rw [hst.kernel]
    exact Lockstep.pure _
  refine hlist.bind fun found => ?_
  cases found with
  | some _ => exact (lockstep_trackChain _).bind fun _ => Lockstep.pure _
  | none =>
    exact (lockstep_queue_same _).bind fun _ => (lockstep_trackChain _).bind fun _ =>
      Lockstep.pure _

theorem lockstep_ruleAction (action : RuleAction) (r : Rule) :
    Lockstep Eq (action.run r) (action.run r) := by
  cases action with
  | addRule => exact lockstep_allocateTransactionID.bind fun _ => lockstep_queue_same _
  | insertRule => exact lockstep_allocateTransactionID.bind fun _ => lockstep_queue_same _

/-- The call for a rule. -/
theorem lockstep_updateRule (r : Rule) (action : RuleAction) (force : Bool) :
    Lockstep Eq (updateRule h r action force) (updateRule h r action force) := by
  have hask : Lockstep Eq (modify fun s => { s with requested := s.requested ++ [r] } : M Unit)
      (modify fun s => { s with requested := s.requested ++ [r] }) :=
    Related.modify fun _ _ hst => ⟨rfl, hst.kernel, hst.messages, hst.lastID, hst.queries,
      hst.rules, hst.sets, hst.chains, by rw [hst.requested]⟩
  have hfind : Lockstep Eq (findRule h r) (findRule h r) := by
    refine Lockstep.bind (Lockstep.wrapErr (lockstep_query fun k k' hk => ?_) _ _) fun rules =>
      Lockstep.pure _
    rw [hk]
  refine hask.bind fun _ => (hfind.wrapErr _ _).bind fun found => ?_
  cases found with
  | some existing =>
    refine Lockstep.ite Iff.rfl (fun _ => ?_) fun _ => ?_
    · exact (lockstep_queue_same _).bind fun _ => (lockstep_ruleAction action r).bind fun _ =>
        (lockstep_trackRule _).bind fun _ => Lockstep.pure _
    · exact (lockstep_trackRule _).bind fun _ => Lockstep.pure _
  | none =>
    exact (lockstep_ruleAction action r).bind fun _ => (lockstep_trackRule _).bind fun _ =>
      Lockstep.pure _

/-- What is to be deleted does not depend on the order of the wanted elements. -/
theorem findNonCommon_congr (a : List SetElement) {els els' : List SetElement}
    (hels : SameElements els els') : findNonCommon a els = findNonCommon a els' := by
  unfold findNonCommon
  refine List.filter_congr fun x _ => ?_
  have hpresent : isPresent x els = isPresent x els' := by
    unfold isPresent
    rw [Bool.eq_iff_iff, List.any_eq_true, List.any_eq_true]
    exact exists_congr fun e => and_congr_left fun _ => hels e
  rw [hpresent]

/-- Neither does the set of what is to be added. -/
theorem sameElements_findNonCommon (b : List SetElement) {els els' : List SetElement}
    (hels : SameElements els els') : SameElements (findNonCommon els b) (findNonCommon els' b) := by
  intro x
  rw [mem_findNonCommon, mem_findNonCommon, hels x]

/-- Elements may be sent in another order. -/
theorem lockstep_updateElements (existing : NftSet) {toAdd toAdd' : List SetElement}
    (toDel : List SetElement) (hadd : SameElements toAdd toAdd') :
    Lockstep Eq (updateElements existing toAdd toDel) (updateElements existing toAdd' toDel) := by
  have hlen : toAdd.length > 0 ↔ toAdd'.length > 0 := by
    rw [gt_iff_lt, gt_iff_lt, List.length_pos_iff, List.length_pos_iff, ne_eq, ne_eq, hadd.nil_iff]
  have hdelete : Lockstep Eq (Conn.setDeleteElements existing toDel)
      (Conn.setDeleteElements existing toDel) :=
    Lockstep.ite Iff.rfl (fun _ => Lockstep.throw _ _) fun _ => lockstep_queue_same _
  have hinsert : Lockstep Eq (Conn.setAddElements existing toAdd)
      (Conn.setAddElements existing toAdd') :=
    Lockstep.ite Iff.rfl (fun _ => Lockstep.throw _ _) fun _ =>
      lockstep_queue (alike_elementOps _ _ hadd)
  unfold updateElements
  refine Lockstep.ite Iff.rfl (fun _ => Lockstep.bind (hdelete.wrapErr _ _) fun _ => ?_) fun _ => ?_
  · exact Lockstep.ite hlen (fun _ => hinsert.wrapErr _ _) fun _ => Lockstep.pure _
  · exact Lockstep.ite hlen (fun _ => hinsert.wrapErr _ _) fun _ => Lockstep.pure _

/-- The call for a set, with its elements in another order. -/
theorem lockstep_updateSet (s : NftSet) {els els' : List SetElement}
    (hels : SameElements els els') :
    Lockstep Eq (updateSet h s els) (updateSet h s els') := by
  refine Lockstep.bind (Lockstep.wrapErr (lockstep_query fun k k' hk => by rw [hk]) _ _)
    fun found => ?_
  cases found with
  | some existing =>
    refine Lockstep.bind (Lockstep.mapErr (lockstep_query fun k k' hk => by rw [hk]) _ _)
      fun els₀ => ?_
    unfold processElements
    rw [findNonCommon_congr els₀ hels]
    exact (lockstep_updateElements existing _ (sameElements_findNonCommon els₀ hels)).bind fun _ =>
      (lockstep_trackSet _).bind fun _ => Lockstep.pure _
  | none =>
    have hadd : Lockstep Eq (Conn.addSet { s with name := shortName s.name } els)
        (Conn.addSet { s with name := shortName s.name } els') := by
      refine Lockstep.ite Iff.rfl (fun _ => ?_) fun _ => ?_
      · exact lockstep_allocateTransactionID.bind fun id =>
          (lockstep_queue (.cons (.refl _) (alike_elementOps _ _ hels))).bind fun _ =>
            Lockstep.pure _
      · exact (lockstep_queue (.cons (.refl _) (alike_elementOps _ _ hels))).bind fun _ =>
          Lockstep.pure _
    exact hadd.bind fun set => (lockstep_trackSet _).bind fun _ => Lockstep.pure _

end

/-! ### Flush and cleanup -/

/-- The kernel's verdict on a batch does not depend on the order of set elements. -/
def Host.Orderless (h : Host) : Prop :=
  ∀ ⦃k k' : Kernel⦄ ⦃ops ops' : List Op⦄, k.Alike k' → List.Forall₂ Op.Alike ops ops' →
    h.accepts k ops = h.accepts k' ops'

section

variable {h : Host} (hh : h.Orderless)

include hh in
/-- The kernel accepts alike batches together. -/
theorem lockstep_flush : Lockstep Kernel.Alike (Conn.flush h) (Conn.flush h) := by
  refine Lockstep.get fun s t hst => ?_
  have hnil : s.messages = [] ↔ t.messages = [] := by
    rw [← List.length_eq_zero_iff, ← List.length_eq_zero_iff, hst.messages.length_eq]
  have haccepts : (s.kernel.admits s.messages && h.accepts s.kernel s.messages) = true ↔
      (t.kernel.admits t.messages && h.accepts t.kernel t.messages) = true := by
    rw [hst.kernel.admits hst.messages, hh hst.kernel hst.messages]
  refine Lockstep.ite hnil (fun _ => Lockstep.pure _) fun _ => Lockstep.ite haccepts (fun _ => ?_)
    fun _ => ?_
  · exact fun _ _ _ => .ok ⟨rfl, hst.kernel.commit hst.messages, .nil, hst.lastID, hst.queries,
      hst.rules, hst.sets, hst.chains, hst.requested⟩
  · exact fun _ _ _ => .error ⟨hst.kernel, .nil, hst.lastID, hst.queries, hst.rules, hst.sets,
      hst.chains, hst.requested⟩

include hh in
theorem lockstep_flush_if (b : Bool) (c : Str) :
    Lockstep Kernel.Alike (if b then wrapErr c (Conn.flush h) else pure ())
      (if b then wrapErr c (Conn.flush h) else pure ()) :=
  Lockstep.ite Iff.rfl (fun _ => (lockstep_flush hh).wrapErr _ _) fun _ => Lockstep.pure _

theorem lockstep_orPanic (x : Except Panic α) :
    Lockstep Kernel.Alike (orPanic x) (orPanic x) := by
  cases x with
  | ok a => exact Lockstep.pure a
  | error e => exact Lockstep.throw _ _

theorem lockstep_getRules (t c : Str) :
    Lockstep Kernel.Alike (Conn.getRules h t c) (Conn.getRules h t c) := by
  refine lockstep_query fun k k' hk => ?_
  rw [Kernel.getRules, Kernel.getRules, hk.rules]

theorem lockstep_listChainsOfTableFamily :
    Lockstep Kernel.Alike (Conn.listChainsOfTableFamily h) (Conn.listChainsOfTableFamily h) :=
  lockstep_query fun _ _ hk => hk.chains

theorem lockstep_cleanupChainRules (t : Str) (b : Bool) (c : Chain) :
    Lockstep Kernel.Alike (cleanupChainRules h t b c) (cleanupChainRules h t b c) := by
  refine Lockstep.ite Iff.rfl (fun _ => ?_) fun _ => Lockstep.pure _
  refine ((lockstep_getRules t c.name).wrapErr _ _).bind fun rules => Lockstep.foldlM ?_ rules b
  intro b r
  refine Lockstep.get fun s t hst => ?_
  rw [hst.rules]
  exact Lockstep.ite Iff.rfl (fun _ => Lockstep.pure _) fun _ => (lockstep_orPanic _).bind fun _ =>
    (lockstep_queue_same _).bind fun _ => Lockstep.pure _

theorem lockstep_cleanupSet (b : Bool) (set : NftSet) :
    Lockstep Kernel.Alike (cleanupSet b set) (cleanupSet b set) := by
  refine Lockstep.get fun s t hst => ?_
  rw [hst.sets]
  exact Lockstep.ite Iff.rfl (fun _ => (lockstep_queue_same _).bind fun _ => Lockstep.pure _)
    fun _ => Lockstep.pure _

theorem lockstep_cleanupChain (b : Bool) (c : Chain) :
    Lockstep Kernel.Alike (cleanupChain h b c) (cleanupChain h b c) := by
  refine Lockstep.ite Iff.rfl (fun _ => ?_) fun _ => Lockstep.pure _
  refine ((lockstep_getRules c.table c.name).wrapErr _ _).bind fun rules => ?_
  refine Lockstep.get fun s t hst => ?_
  rw [hst.chains]
  exact Lockstep.ite Iff.rfl (fun _ => (lockstep_queue_same _).bind fun _ => Lockstep.pure _)
    fun _ => Lockstep.pure _

include hh in
/-- The cleanup of a table. -/
theorem lockstep_cleanupRules (t : Str) :
    Lockstep Kernel.Alike (cleanupRules h t) (cleanupRules h t) := by
  have hsets : Lockstep Kernel.Alike (Conn.getSets h t) (Conn.getSets h t) := by
    refine lockstep_query fun k k' hk => ?_
    rw [hk.sets]
  refine (lockstep_listChainsOfTableFamily.wrapErr _ _).bind fun chains => ?_
  refine (Lockstep.foldlM (lockstep_cleanupChainRules t) chains false).bind fun deleted => ?_
  refine (hsets.wrapErr _ _).bind fun sets => ?_
  exact (Lockstep.foldlM lockstep_cleanupSet sets deleted).bind fun b => lockstep_flush_if hh b _

include hh in
/-- The cleanup reads nothing that differs between alike rulesets. -/
theorem lockstep_cleanup : Lockstep Kernel.Alike (cleanup h) (cleanup h) := by
  have hchains : Lockstep Kernel.Alike (cleanupChains h) (cleanupChains h) :=
    (lockstep_listChainsOfTableFamily.wrapErr _ _).bind fun chains =>
      (Lockstep.foldlM lockstep_cleanupChain chains false).bind fun b => lockstep_flush_if hh b _
  exact ((lockstep_cleanupRules hh _).wrapErr _ _).bind fun _ =>
    ((lockstep_cleanupRules hh _).wrapErr _ _).bind fun _ => hchains.wrapErr _ _

end

/-! ### Rendering programs -/

namespace Render

variable {α β γ δ : Type}

/-- The same calls up to the order of elements, with related results; or a failure on both sides. -/
inductive Sim (R : α → β → Prop) : Render α → Render β → Prop
  | ret {a b} (h : R a b) : Sim R (.ret a) (.ret b)
  | fail (e e' : Error) : Sim R (.fail e) (.fail e')
  | chain {w w' c k k'} (h : Sim R (k c.short) (k' c.short)) : Sim R (.chain w c k) (.chain w' c k')
  | set {w w' s els els' k k'} (hels : SameElements els els') (h : ∀ x, Sim R (k x) (k' x)) :
      Sim R (.set w s els k) (.set w' s els' k')
  | rule {w w' r action force k k'} (h : ∀ x, Sim R (k x) (k' x)) :
      Sim R (.rule w r action force k) (.rule w' r action force k')

theorem Sim.refl (p : Render α) : Sim Eq p p := by
  induction p with
  | ret a => exact .ret rfl
  | fail e => exact .fail e e
  | chain w c k ih => exact .chain (ih _)
  | set w s els k ih => exact .set (fun _ => Iff.rfl) ih
  | rule w r action force k ih => exact .rule ih

/-- Sequences of programs. -/
theorem Sim.bind {R : α → β → Prop} {Q : γ → δ → Prop} {p : Render α} {q : Render β}
    {f : α → Render γ} {g : β → Render δ} (h : Sim R p q) (hfg : ∀ a b, R a b → Sim Q (f a) (g b)) :
    Sim Q (p >>= f) (q >>= g) := by
  change Sim Q (p.bind f) (q.bind g)
  induction h with
  | ret hab => exact hfg _ _ hab
  | fail e e' => exact .fail e e'
  | chain _ ih => exact .chain ih
  | set hels _ ih => exact .set hels ih
  | rule _ ih => exact .rule ih

/-- What comes after the same program. -/
theorem Sim.bind_same {Q : γ → δ → Prop} (p : Render α) {f : α → Render γ} {g : α → Render δ}
    (hfg : ∀ a, Sim Q (f a) (g a)) : Sim Q (p >>= f) (p >>= g) := by
  refine (Sim.refl p).bind fun a b hab => ?_
  rw [← hab]
  exact hfg a

theorem Sim.wrapErr {R : α → β → Prop} {p : Render α} {q : Render β} (h : Sim R p q) (c c' : Str) :
    Sim R (wrapErr c p) (wrapErr c' q) := by
  induction h with
  | ret hab => exact .ret hab
  | fail e e' => exact .fail _ _
  | chain _ ih => exact .chain ih
  | set hels _ ih => exact .set hels ih
  | rule _ ih => exact .rule ih

/-- A chain that is asked for is known from then on. -/
theorem Sim.bind_addChain {Q : γ → δ → Prop} (context context' : Str) (c : Chain)
    {f : Chain → Render γ} {g : Chain → Render δ} (hfg : Sim Q (f c.short) (g c.short)) :
    Sim Q (Render.wrapErr context (addChain c) >>= f)
      (Render.wrapErr context' (addChain c) >>= g) := by
  refine Sim.bind (R := fun x y => x = c.short ∧ y = c.short) (.chain (.ret ⟨rfl, rfl⟩)) ?_
  rintro _ _ ⟨rfl, rfl⟩
  exact hfg

theorem Sim.when (c : Prop) [Decidable c] {p q : Render Unit} (h : Sim Eq p q) :
    Sim Eq (when c p) (when c q) := by
  unfold Render.when
  split
  · exact h
  · exact .ret rfl

/-- Loops over the same list. -/
theorem Sim.forEach {f g : Nat → α → Render Unit} : ∀ (l : List α) (i : Nat),
    (∀ x ∈ l.zipIdx i, Sim Eq (f x.2 x.1) (g x.2 x.1)) → Sim Eq (forEach f i l) (forEach g i l)
  | [], _, _ => .ret rfl
  | a :: l, i, h => by
    rw [List.zipIdx_cons, List.forall_mem_cons] at h
    exact h.1.bind fun _ _ _ => Sim.forEach l (i + 1) h.2

theorem Sim.orLoop {f g : α → Render Bool} : ∀ l : List α, (∀ a ∈ l, Sim Eq (f a) (g a)) →
    Sim Eq (orLoop f l) (orLoop g l)
  | [], _ => .ret rfl
  | a :: l, h => by
    rw [List.forall_mem_cons] at h
    refine h.1.bind fun b _ hb => (Sim.orLoop l h.2).bind fun bs _ hbs => ?_
    rw [hb, hbs]
    exact .ret rfl

/-- Programs that make the same calls run side by side. -/
theorem related_run (h : Host) {R : α → β → Prop} {p : Render α} {q : Render β} (hpq : Sim R p q) :
    Related (State.Alike Eq) (p.run h) (q.run h) (fun a b s t => R a b ∧ s.Alike Eq t)
      (State.Alike Eq) := by
  induction hpq with
  | ret hab => exact Related.pure fun _ _ hst => ⟨hab, hst⟩
  | fail e e' => exact Related.throw fun _ _ hst => hst
  | chain _ ih =>
    rename_i w w' c _ _ _
    have hshort := ((lockstep_addChain h c).mapErr w w').and_of_ok (F := fun x => x = c.short)
      fun _ _ _ hx => (addChain_advance (mapErr_eq_ok.1 hx)).1
    refine Related.bind hshort fun x y s t hst => ?_
    rw [← hst.1.1, hst.2]
    exact ih s t hst.1.2
  | set hels _ ih =>
    refine Related.bind ((lockstep_updateSet h _ hels).mapErr _ _) fun x y s t hst => ?_
    rw [← hst.1]
    exact ih x s t hst.2
  | rule _ ih =>
    refine Related.bind ((lockstep_updateRule h _ _ _).mapErr _ _) fun x y s t hst => ?_
    rw [← hst.1]
    exact ih x s t hst.2

end Render

end MultiNetPolicy
