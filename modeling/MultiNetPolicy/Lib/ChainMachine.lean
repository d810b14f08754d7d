import Mathlib

/-!
# Chains of rules

A machine that walks lists of rules: executing a rule changes the state and says what happens
next (`Action`).  A chain is a named list of rules; a rule may jump to another chain and evaluation
comes back behind the jump, or go to it and not come back.

`flow` walks a list and keeps apart falling off its end (`none`) from stopping (`some`), so that it
composes over `++` (`flow_append`); `evalChain` is the verdict of a whole chain, with the depth of
nested calls bounded as the kernel bounds its jump stack.

* `Shallow.evalChain_eq`: chains that nest little do not notice the bound.
* `flow_of_next`, `flow_of_first`: lists of rules that either hit or do nothing.
* `Visits.rel`: a relation that every rule keeps holds of every state on the way (`Visits`).
-/

namespace ChainMachine

/-- What a rule asks for. -/
inductive Action (N : Type*) where
  | next
  | ret
  | accept
  | drop
  | jump (chain : N)
  | goto (chain : N)
  deriving DecidableEq

/-- The outcome of a chain: a final verdict, or `done` when it ended or returned. -/
inductive Verdict where
  | accept
  | drop
  | done
  deriving DecidableEq

/-- How rules execute and which rules a chain holds. -/
structure Machine (R S N : Type*) where
  exec : R → S → S × Action N
  body : N → List R

variable {R S N : Type*} (M : Machine R S N)

/-- Walk the rules; `none` when the end of the list is reached. -/
def flow (call : N → S → S × Verdict) : List R → S → S × Option Verdict
  | [], s => (s, none)
  | r :: rs, s =>
    match M.exec r s with
    | (s', .next) => flow call rs s'
    | (s', .ret) => (s', some .done)
    | (s', .accept) => (s', some .accept)
    | (s', .drop) => (s', some .drop)
    | (s', .jump n) =>
      match call n s' with
      | (s'', .done) => flow call rs s''
      | (s'', v) => (s'', some v)
    | (s', .goto n) => ((call n s').1, some (call n s').2)

/-- The verdict of a chain, calls nested at most `depth` deep; a deeper call drops. -/
def evalChain : Nat → N → S → S × Verdict
  | 0, _, s => (s, .drop)
  | depth + 1, n, s =>
    match flow M (evalChain depth) (M.body n) s with
    | (s', none) => (s', .done)
    | (s', some v) => (s', v)

/-- Walking two lists one after the other. -/
theorem flow_append (call : N → S → S × Verdict) (l₁ l₂ : List R) (s : S) :
    flow M call (l₁ ++ l₂) s =
      match flow M call l₁ s with
      | (s', none) => flow M call l₂ s'
      | (s', some v) => (s', some v) := by
  induction l₁ generalizing s with
  | nil => rfl
  | cons r rs ih =>
    rw [List.cons_append, flow, flow]
    split
    · exact ih _
    · rfl
    · rfl
    · rfl
    · split
      · exact ih _
      · rfl
    · rfl

/-- The verdict of a chain is what walking its rules gives, `done` at the end of the list. -/
theorem evalChain_succ (depth : Nat) (n : N) (s : S) :
    evalChain M (depth + 1) n s =
      ((flow M (evalChain M depth) (M.body n) s).1,
        (flow M (evalChain M depth) (M.body n) s).2.getD .done) := by
  rw [evalChain]
  rcases flow M (evalChain M depth) (M.body n) s with ⟨s', _ | v⟩ <;> rfl

/-! ### Machines that do the same -/

/-- Rules that do the same, with calls that do. -/
theorem flow_congr {M M' : Machine R S N} {call call' : N → S → S × Verdict} {rules : List R}
    (hcall : ∀ n s, call n s = call' n s) (hexec : ∀ r ∈ rules, ∀ s, M.exec r s = M'.exec r s)
    (s : S) : flow M call rules s = flow M' call' rules s := by
  induction rules generalizing s with
  | nil => rfl
  | cons r rs ih =>
    have hrs := ih fun x hx => hexec x (List.mem_cons_of_mem _ hx)
    rw [flow, flow, hexec r (List.mem_cons_self ..)]
    rcases M'.exec r s with ⟨s', a⟩
    cases a with
    | next => exact hrs s'
    | jump n =>
      simp only [hcall]
      rcases call' n s' with ⟨s'', v⟩
      cases v <;> first | exact hrs s'' | rfl
    | goto n => simp only [hcall]
    | _ => rfl

/-- Machines with the same chains, whose rules do the same there. -/
theorem evalChain_congr {M M' : Machine R S N} (hbody : ∀ n, M'.body n = M.body n)
    (hexec : ∀ n, ∀ r ∈ M.body n, ∀ s, M.exec r s = M'.exec r s) (depth : Nat) (n : N) (s : S) :
    evalChain M depth n s = evalChain M' depth n s := by
  induction depth generalizing n s with
  | zero => rfl
  | succ depth ih => rw [evalChain_succ, evalChain_succ, hbody, flow_congr ih (hexec n)]

/-! ### Chains that nest little -/

/-- Calls from the chain are nested less than `depth` deep, whatever the state. -/
def Shallow : Nat → N → Prop
  | 0, _ => False
  | depth + 1, n => ∀ r ∈ M.body n, ∀ s m,
    (M.exec r s).2 = .jump m ∨ (M.exec r s).2 = .goto m → Shallow depth m

variable {M} in
/-- Only the calls that the rules of the list make matter. -/
theorem flow_congr_calls {call call' : N → S → S × Verdict} {rules : List R}
    (h : ∀ r ∈ rules, ∀ s m, (M.exec r s).2 = .jump m ∨ (M.exec r s).2 = .goto m →
      ∀ t, call m t = call' m t) (s : S) : flow M call rules s = flow M call' rules s := by
  induction rules generalizing s with
  | nil => rfl
  | cons r rs ih =>
    have hrs := ih fun x hx => h x (List.mem_cons_of_mem _ hx)
    have hr := h r (List.mem_cons_self ..) s
    rw [flow, flow]
    rcases hexec : M.exec r s with ⟨s', a⟩
    rw [hexec] at hr
    cases a with
    | next => exact hrs s'
    | jump m =>
      simp only [hr m (.inl rfl)]
      rcases call' m s' with ⟨s'', v⟩
      cases v <;> first | exact hrs s'' | rfl
    | goto m => simp only [hr m (.inr rfl)]
    | _ => rfl

variable {M} in
/-- The bound on nested calls is not noticed by a chain that nests fewer. -/
theorem Shallow.evalChain_eq {depth : Nat} {n : N} (h : Shallow M depth n) {bound : Nat}
    (hb : depth ≤ bound) (s : S) : evalChain M bound n s = evalChain M depth n s := by
  induction depth generalizing n bound s with
  | zero => exact h.elim
  | succ depth ih =>
    obtain ⟨bound, rfl⟩ : ∃ b, bound = b + 1 := ⟨bound - 1, by omega⟩
    rw [evalChain_succ, evalChain_succ,
      flow_congr_calls fun r hr s m hm t => ih (h r hr s m hm) (by omega) t]

/-! ### Rules that hit or do nothing -/

variable {M} {call : N → S → S × Verdict} {rules : List R} {hit : R → Bool}

/-- Rules that change the state by the same idempotent function and go on. -/
theorem flow_of_next {f : S → S} (hf : ∀ s, f (f s) = f s)
    (h : ∀ r ∈ rules, ∀ s, M.exec r s = (if hit r then f s else s, .next)) (s : S) :
    flow M call rules s = (if rules.any hit then f s else s, none) := by
  induction rules generalizing s with
  | nil => rfl
  | cons r rs ih =>
    have hrs := ih fun x hx => h x (List.mem_cons_of_mem _ hx)
    rw [flow, h r (List.mem_cons_self ..), List.any_cons]
    cases hit r with
    | false => exact hrs s
    | true =>
      refine (hrs (f s)).trans ?_
      rw [hf, ite_self]
      rfl

/-- The first rule that hits decides. -/
theorem flow_of_first {f : R → S → S × Verdict}
    (h : ∀ r ∈ rules, ∀ s, M.exec r s = if hit r then
      ((f r s).1, match (f r s).2 with
        | .accept => .accept
        | .drop => .drop
        | .done => .ret) else (s, .next)) (s : S) :
    flow M call rules s = match rules.find? hit with
      | some r => ((f r s).1, some (f r s).2)
      | none => (s, none) := by
  induction rules with
  | nil => rfl
  | cons r rs ih =>
    have hrs := ih fun x hx => h x (List.mem_cons_of_mem _ hx)
    rw [flow, h r (List.mem_cons_self ..), List.find?_cons]
    cases hit r with
    | false => exact hrs
    | true =>
      simp only [if_true]
      cases (f r s).2 <;> rfl

/-! ### States on the way -/

variable (M) in
/-- Walking a list of rules from `s`, with calls nested at most `depth` deep, comes through `t`. -/
inductive Visits : Nat → List R → S → S → Prop where
  | here {depth rules s} : Visits depth rules s s
  | behind {depth r rules s} : Visits depth (r :: rules) s (M.exec r s).1
  | next {depth r rules s t} : (M.exec r s).2 = .next →
      Visits depth rules (M.exec r s).1 t → Visits depth (r :: rules) s t
  | jump {depth r rules s t n} : (M.exec r s).2 = .jump n →
      Visits depth (M.body n) (M.exec r s).1 t → Visits (depth + 1) (r :: rules) s t
  | back {depth r rules s t n} : (M.exec r s).2 = .jump n →
      (evalChain M depth n (M.exec r s).1).2 = .done →
      Visits depth rules (evalChain M depth n (M.exec r s).1).1 t → Visits depth (r :: rules) s t
  | goto {depth r rules s t n} : (M.exec r s).2 = .goto n →
      Visits depth (M.body n) (M.exec r s).1 t → Visits (depth + 1) (r :: rules) s t

section Relation

variable {P : S → S → Prop} (hrefl : ∀ s, P s s) (htrans : ∀ {s t u}, P s t → P t u → P s u)
include hrefl htrans

/-- What every rule and every call keeps, walking a list keeps. -/
theorem flow_rel (hcall : ∀ n s, P s (call n s).1)
    (hrules : ∀ r ∈ rules, ∀ s, P s (M.exec r s).1) (s : S) : P s (flow M call rules s).1 := by
  induction rules generalizing s with
  | nil => exact hrefl s
  | cons r rs ih =>
    have hr := hrules r (List.mem_cons_self ..) s
    have hrs := ih fun x hx => hrules x (List.mem_cons_of_mem _ hx)
    rw [flow]
    rcases hexec : M.exec r s with ⟨s', a⟩
    rw [hexec] at hr
    cases a with
    | next => exact htrans hr (hrs s')
    | ret => exact hr
    | accept => exact hr
    | drop => exact hr
    | jump n =>
      have hn := htrans hr (hcall n s')
      rcases hc : call n s' with ⟨s'', v⟩
      rw [hc] at hn
      simp only [hc]
      cases v with
      | accept => exact hn
      | drop => exact hn
      | done => exact htrans hn (hrs s'')
    | goto n => exact htrans hr (hcall n s')

/-- What every rule keeps of the state, a chain keeps. -/
theorem evalChain_rel (hbody : ∀ n, ∀ r ∈ M.body n, ∀ s, P s (M.exec r s).1) (depth : Nat) (n : N)
    (s : S) : P s (evalChain M depth n s).1 := by
  induction depth generalizing n s with
  | zero => exact hrefl s
  | succ depth ih =>
    rw [evalChain_succ]
    exact flow_rel hrefl htrans ih (hbody n) s

/-- What every rule keeps of the state, holds of every state on the way. -/
theorem Visits.rel (hbody : ∀ n, ∀ r ∈ M.body n, ∀ s, P s (M.exec r s).1) {depth : Nat}
    {l : List R} {s t : S} (h : Visits M depth l s t)
    (hrules : ∀ r ∈ l, ∀ s, P s (M.exec r s).1) : P s t := by
  induction h with
  | here => exact hrefl _
  | behind => exact hrules _ (List.mem_cons_self ..) _
  | next _ _ ih =>
    exact htrans (hrules _ (List.mem_cons_self ..) _)
      (ih fun x hx => hrules x (List.mem_cons_of_mem _ hx))
  | jump _ _ ih => exact htrans (hrules _ (List.mem_cons_self ..) _) (ih (hbody _))
  | back _ _ _ ih =>
    refine htrans (hrules _ (List.mem_cons_self ..) _) (htrans ?_
      (ih fun x hx => hrules x (List.mem_cons_of_mem _ hx)))
    exact evalChain_rel hrefl htrans hbody _ _ _
  | goto _ _ ih => exact htrans (hrules _ (List.mem_cons_self ..) _) (ih (hbody _))

end Relation

end ChainMachine
