import MultiNetPolicy.Nft.Basic

/-!
# The committed ruleset

`Kernel` is the `inet` ruleset of one network namespace.  Rules are kept in one list for all
chains: the rules of a chain are the ones that name it, in list order, so that appending to a chain
is appending to the list and inserting at its head is prepending.  `Op` is one message of a
batch and `commit` the effect of an accepted batch.

`WF` is what the kernel guarantees of any ruleset: handles name one rule, and a rule lives in a
chain that exists.
-/

namespace MultiNetPolicy

open ByteString

/-- A set element with the set it belongs to. -/
structure StoredElement where
  table : Str
  set : Str
  elem : SetElement
  deriving DecidableEq, Repr

/-- The ruleset of a network namespace. -/
structure Kernel where
  tables : List Str
  chains : List Chain
  rules : List Rule
  sets : List NftSet
  elements : List StoredElement
  nextHandle : Nat
  deriving DecidableEq, Repr

/-- A message of a batch. -/
inductive Op where
  | addTable (table : Str)
  | addChain (chain : Chain)
  | delChain (table chain : Str)
  | addRule (rule : Rule)
  | insertRule (rule : Rule)
  | delRule (table chain : Str) (handle : Nat)
  | addSet (set : NftSet)
  | addElements (table set : Str) (elems : List SetElement)
  | deleteElements (table set : Str) (elems : List SetElement)
  | delSet (table set : Str)
  deriving DecidableEq, Repr

namespace Rule

/-- The rule belongs to a chain. -/
def inChain (t c : Str) (r : Rule) : Bool := r.table == t && r.chain == c

end Rule

namespace StoredElement

def inSet (t s : Str) (e : StoredElement) : Bool := e.table == t && e.set == s

/-- An element is named by its key and its interval flag. -/
def sameAs (e : StoredElement) (x : SetElement) : Bool :=
  e.elem.key == x.key && e.elem.intervalEnd == x.intervalEnd

end StoredElement

namespace Kernel

/-! ### Listing -/

def hasTable (k : Kernel) (t : Str) : Bool := k.tables.contains t

def findChain (k : Kernel) (t c : Str) : Option Chain :=
  k.chains.find? fun x => x.table == t && x.name == c

def hasChain (k : Kernel) (t c : Str) : Bool := (k.findChain t c).isSome

/-- `GetSetByName`. -/
def findSet (k : Kernel) (t s : Str) : Option NftSet :=
  k.sets.find? fun x => x.table == t && x.name == s

def hasSet (k : Kernel) (t s : Str) : Bool := (k.findSet t s).isSome

/-- `GetRules`: the rules of a chain in order, as they are listed. -/
def getRules (k : Kernel) (t c : Str) : List Rule :=
  (k.rules.filter (Rule.inChain t c)).map Rule.listed

/-- `GetSetElements`. -/
def getElements (k : Kernel) (t s : Str) : List SetElement :=
  (k.elements.filter (StoredElement.inSet t s)).map StoredElement.elem

/-- The contents of a chain: its rules as listed, without their handles. -/
def chainRules (k : Kernel) (t c : Str) : List Rule := (k.getRules t c).map Rule.erase

/-! ### Committing -/

/-- Elements that are already in the set stay as they are. -/
def addElement (t s : Str) (els : List StoredElement) (x : SetElement) : List StoredElement :=
  if els.any fun e => e.inSet t s && e.sameAs x then els else els ++ [⟨t, s, x⟩]

/-- The effect of one accepted message.  Adding an object that exists keeps it; deleting a chain
deletes its rules, deleting a set its elements. -/
def apply (k : Kernel) : Op → Kernel
  | .addTable t => if k.hasTable t then k else { k with tables := k.tables ++ [t] }
  | .addChain c => if k.hasChain c.table c.name then k else { k with chains := k.chains ++ [c] }
  | .delChain t c =>
    { k with
      chains := k.chains.filter fun x => !(x.table == t && x.name == c)
      rules := k.rules.filter fun r => !r.inChain t c }
  | .addRule r =>
    { k with
      rules := k.rules ++ [{ r with handle := k.nextHandle }]
      nextHandle := k.nextHandle + 1 }
  | .insertRule r =>
    { k with
      rules := { r with handle := k.nextHandle } :: k.rules
      nextHandle := k.nextHandle + 1 }
  | .delRule t c h => { k with rules := k.rules.filter fun r => !(r.inChain t c && r.handle == h) }
  | .addSet s => if k.hasSet s.table s.name then k else { k with sets := k.sets ++ [s] }
  | .addElements t s els => { k with elements := els.foldl (addElement t s) k.elements }
  | .deleteElements t s els =>
    { k with elements := k.elements.filter fun e => !(e.inSet t s && els.any e.sameAs) }
  | .delSet t s =>
    { k with
      sets := k.sets.filter fun x => !(x.table == t && x.name == s)
      elements := k.elements.filter fun e => !e.inSet t s }

/-- A rule goes into a chain that exists. -/
def legal (k : Kernel) : Op → Bool
  | .addRule r => k.hasChain r.table r.chain
  | .insertRule r => k.hasChain r.table r.chain
  | _ => true

/-- Every message of a batch is legal when its turn comes. -/
def admits : Kernel → List Op → Bool
  | _, [] => true
  | k, op :: ops => k.legal op && admits (k.apply op) ops

/-- The effect of an accepted batch. -/
def commit (k : Kernel) (ops : List Op) : Kernel := ops.foldl apply k

@[simp] theorem commit_nil (k : Kernel) : k.commit [] = k := rfl

@[simp] theorem commit_cons (k : Kernel) (op : Op) (ops : List Op) :
    k.commit (op :: ops) = (k.apply op).commit ops := rfl

/-- Messages one after the other. -/
theorem commit_append (k : Kernel) (ops₁ ops₂ : List Op) :
    k.commit (ops₁ ++ ops₂) = (k.commit ops₁).commit ops₂ :=
  List.foldl_append

/-! ### Well-formed rulesets -/

/-- What the kernel guarantees of any ruleset. -/
structure WF (k : Kernel) : Prop where
  handles_nodup : (k.rules.map Rule.handle).Nodup
  handle_lt : ∀ r ∈ k.rules, r.handle < k.nextHandle
  chain_exists : ∀ r ∈ k.rules, k.hasChain r.table r.chain

/-- The ruleset of a new network namespace. -/
def empty : Kernel := ⟨[], [], [], [], [], 1⟩

theorem WF.empty : WF empty :=
  ⟨by simp [Kernel.empty], by simp [Kernel.empty], by simp [Kernel.empty]⟩

/-- A chain is there when one with its name is. -/
theorem hasChain_iff {k : Kernel} {t c : Str} :
    k.hasChain t c = true ↔ ∃ x ∈ k.chains, x.table = t ∧ x.name = c := by
  unfold hasChain findChain
  simp [List.find?_isSome]

/-- A set is there when one with its name is. -/
theorem hasSet_iff {k : Kernel} {t n : Str} :
    k.hasSet t n = true ↔ ∃ x ∈ k.sets, x.table = t ∧ x.name = n := by
  unfold hasSet findSet
  simp [List.find?_isSome]

/-- A rule with a fresh handle, put anywhere among the others. -/
theorem WF.add {k : Kernel} (wf : k.WF) {r : Rule} (hr : k.hasChain r.table r.chain) {l : List Rule}
    (hl : l.Perm ({ r with handle := k.nextHandle } :: k.rules)) :
    WF { k with rules := l, nextHandle := k.nextHandle + 1 } where
  handles_nodup := by
    have hp := hl.map Rule.handle
    rw [hp.nodup_iff, List.map_cons, List.nodup_cons]
    refine ⟨?_, wf.handles_nodup⟩
    intro h
    obtain ⟨r', hr', he⟩ := List.mem_map.1 h
    have hlt := wf.handle_lt r' hr'
    simp only at he
    omega
  handle_lt := by
    intro x hx
    rcases List.mem_cons.1 (hl.mem_iff.1 hx) with rfl | hx
    · exact Nat.lt_succ_self _
    · exact Nat.lt_succ_of_lt (wf.handle_lt x hx)
  chain_exists := by
    intro x hx
    rcases List.mem_cons.1 (hl.mem_iff.1 hx) with rfl | hx
    · exact hr
    · exact wf.chain_exists x hx

/-- Dropping rules, and at most chains that then hold none. -/
theorem WF.filter {k : Kernel} (wf : k.WF) {p : Rule → Bool} {cs : List Chain}
    (hc : ∀ r ∈ k.rules, p r → ∃ x ∈ cs, x.table = r.table ∧ x.name = r.chain) :
    WF { k with rules := k.rules.filter p, chains := cs } where
  handles_nodup := (List.filter_sublist.map _).nodup wf.handles_nodup
  handle_lt r hr := wf.handle_lt r (List.mem_of_mem_filter hr)
  chain_exists r hr := by
    obtain ⟨hr, hp⟩ := List.mem_filter.1 hr
    exact hasChain_iff.2 (hc r hr hp)

/-- **Messages keep rulesets well-formed.** -/
theorem WF.apply {k : Kernel} (wf : k.WF) {op : Op} (hop : k.legal op) : (k.apply op).WF := by
  cases op with
  | addTable t =>
    rw [Kernel.apply]
    split
    · exact wf
    · exact ⟨wf.handles_nodup, wf.handle_lt, wf.chain_exists⟩
  | addChain c =>
    rw [Kernel.apply]
    split
    · exact wf
    · refine ⟨wf.handles_nodup, wf.handle_lt, fun r hr => ?_⟩
      obtain ⟨x, hx, h⟩ := hasChain_iff.1 (wf.chain_exists r hr)
      exact hasChain_iff.2 ⟨x, List.mem_append_left _ hx, h⟩
  | delChain t c =>
    refine wf.filter fun r hr hp => ?_
    obtain ⟨x, hx, ht, hn⟩ := hasChain_iff.1 (wf.chain_exists r hr)
    refine ⟨x, List.mem_filter.2 ⟨hx, ?_⟩, ht, hn⟩
    rw [ht, hn]
    exact hp
  | addRule r => exact wf.add hop (List.perm_append_singleton _ _)
  | insertRule r => exact wf.add hop (List.Perm.refl _)
  | delRule t c h => exact wf.filter fun r hr _ => hasChain_iff.1 (wf.chain_exists r hr)
  | addSet s =>
    rw [Kernel.apply]
    split
    · exact wf
    · exact ⟨wf.handles_nodup, wf.handle_lt, wf.chain_exists⟩
  | addElements t s els => exact ⟨wf.handles_nodup, wf.handle_lt, wf.chain_exists⟩
  | deleteElements t s els => exact ⟨wf.handles_nodup, wf.handle_lt, wf.chain_exists⟩
  | delSet t s => exact ⟨wf.handles_nodup, wf.handle_lt, wf.chain_exists⟩

/-- **An accepted batch keeps the ruleset well formed.** -/
theorem WF.commit : ∀ {ops : List Op} {k : Kernel}, k.WF → k.admits ops → (k.commit ops).WF
  | [], _, wf, _ => wf
  | op :: ops, k, wf, h => by
    rw [admits, Bool.and_eq_true] at h
    exact (wf.apply h.1).commit h.2

end Kernel

end MultiNetPolicy
