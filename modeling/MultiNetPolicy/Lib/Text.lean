import MultiNetPolicy.Lib.ByteString

/-!
# Cutting and trimming text

`strings.Cut`, `strings.Contains` and `strings.TrimSpace` on the bytes of a Go string.  White space
is what `unicode.IsSpace` says it is; `spaces` lists the UTF-8 encodings of those runes.  An
encoding ends where the next rune starts, so the last rune of a string is white space exactly when
the string ends in one of them, and `TrimSpace` can work on bytes from both ends.

* `eq_of_cut_eq_some`, `intercalate_split`: nothing is lost by cutting and splitting.
* `isDigit_of_parseDigits`: what `parseDigits` reads are digits.
* `append_first_sep_inj`: the first separator of a string splits it in one way only.
-/

namespace ByteString

/-- `strings.Cut(s, sep)`: the text before and after the first `sep`. -/
def cut (sep : Str) : Str → Option (Str × Str)
  | [] => if sep = [] then some ([], []) else none
  | c :: cs =>
    if hasPrefix (c :: cs) sep then some ([], (c :: cs).drop sep.length)
    else (cut sep cs).map fun p => (c :: p.1, p.2)

/-- `strings.Contains(s, sub)`. -/
def containsText (s sub : Str) : Bool := (cut sub s).isSome

/-- The encodings of the runes with the property White_Space. -/
def spaces : List Str :=
  [[0x09], [0x0a], [0x0b], [0x0c], [0x0d], [0x20], [0xc2, 0x85], [0xc2, 0xa0], [0xe1, 0x9a, 0x80],
    [0xe2, 0x80, 0x80], [0xe2, 0x80, 0x81], [0xe2, 0x80, 0x82], [0xe2, 0x80, 0x83],
    [0xe2, 0x80, 0x84], [0xe2, 0x80, 0x85], [0xe2, 0x80, 0x86], [0xe2, 0x80, 0x87],
    [0xe2, 0x80, 0x88], [0xe2, 0x80, 0x89], [0xe2, 0x80, 0x8a], [0xe2, 0x80, 0xa8],
    [0xe2, 0x80, 0xa9], [0xe2, 0x80, 0xaf], [0xe2, 0x81, 0x9f], [0xe3, 0x80, 0x80]]

/-- Drop the given texts from the front, one a round. -/
def trimFront (texts : List Str) : Nat → Str → Str
  | 0, s => s
  | fuel + 1, s =>
    match texts.find? fun t => hasPrefix s t with
    | none => s
    | some t => trimFront texts fuel (s.drop t.length)

/-- `strings.TrimSpace`.  Every round drops a byte at least. -/
def trimSpace (s : Str) : Str :=
  let front := trimFront spaces s.length s
  (trimFront (spaces.map List.reverse) front.length front.reverse).reverse

example : trimSpace (str " a b\t" ++ [0xc2, 0xa0, 0x20]) = str "a b" := by decide

/-- A cut text is put together again by its separator. -/
theorem eq_of_cut_eq_some {sep : Str} : ∀ {s a b : Str}, cut sep s = some (a, b) → s = a ++ sep ++ b
  | [], a, b, h => by
    rw [cut] at h
    split at h
    · rename_i hsep
      cases h
      rw [hsep]
      rfl
    · cases h
  | c :: cs, a, b, h => by
    rw [cut] at h
    split at h
    · rename_i hstart
      rw [Option.some.injEq, Prod.mk.injEq] at h
      obtain ⟨rfl, rfl⟩ := h
      obtain ⟨t, ht⟩ := List.isPrefixOf_iff_prefix.1 hstart
      rw [List.nil_append, ← ht, List.drop_left]
    · rw [Option.map_eq_some_iff] at h
      obtain ⟨⟨a', b'⟩, hcut, heq⟩ := h
      rw [Prod.mk.injEq] at heq
      obtain ⟨rfl, rfl⟩ := heq
      rw [eq_of_cut_eq_some hcut]
      rfl

/-- A loop that stops at the first item without `P` has seen only items with `P` if it ends. -/
theorem forall_of_foldl_isSome {α β : Type} {f : Option β → α → Option β} {P : α → Prop}
    (hf : ∀ acc a v, f acc a = some v → acc.isSome = true ∧ P a) :
    ∀ (l : List α) {acc : Option β} {v : β}, l.foldl f acc = some v →
      acc.isSome = true ∧ ∀ a ∈ l, P a
  | [], _, _, h => ⟨Option.isSome_of_mem h, List.forall_mem_nil _⟩
  | a :: l, acc, v, h => by
    obtain ⟨hsome, hl⟩ := forall_of_foldl_isSome hf l h
    obtain ⟨w, hw⟩ := Option.isSome_iff_exists.1 hsome
    obtain ⟨hacc, ha⟩ := hf acc a w hw
    exact ⟨hacc, List.forall_mem_cons.2 ⟨ha, hl⟩⟩

/-- Digits are all a number that `parseDigits` reads consists of. -/
theorem isDigit_of_parseDigits {s : Str} {v : Nat} (h : parseDigits s = some v) :
    s ≠ [] ∧ ∀ b ∈ s, isDigit b = true := by
  cases s with
  | nil => cases h
  | cons b bs =>
    dsimp only [parseDigits] at h
    refine ⟨List.cons_ne_nil b bs, (forall_of_foldl_isSome ?_ (b :: bs) h).2⟩
    intro acc c v h
    cases acc with
    | none => cases h
    | some w =>
      refine ⟨rfl, ?_⟩
      by_contra hc
      simp only [hc] at h
      cases h

/-! ### Parts of a text -/

/-- There is at least one part, the whole text. -/
theorem split_ne_nil (sep : UInt8) (s : Str) : split sep s ≠ [] := by
  cases s with
  | nil => exact List.cons_ne_nil _ _
  | cons c cs =>
    rw [split]
    split
    · exact List.cons_ne_nil _ _
    · split <;> exact List.cons_ne_nil _ _

theorem split_cons_of_ne {sep c : UInt8} (hc : c ≠ sep) (cs : Str) :
    ∃ p ps, split sep cs = p :: ps ∧ split sep (c :: cs) = (c :: p) :: ps := by
  obtain ⟨p, ps, hsplit⟩ := List.exists_cons_of_ne_nil (split_ne_nil sep cs)
  refine ⟨p, ps, hsplit, ?_⟩
  rw [split, if_neg hc, hsplit]

/-- The parts are put together again by the separator. -/
theorem intercalate_split (sep : UInt8) : ∀ s : Str, [sep].intercalate (split sep s) = s
  | [] => rfl
  | c :: cs => by
    have ih := intercalate_split sep cs
    by_cases hc : c = sep
    · obtain ⟨p, ps, hsplit⟩ := List.exists_cons_of_ne_nil (split_ne_nil sep cs)
      rw [hsplit, List.intercalate] at ih
      rw [split, if_pos hc, hsplit, List.intercalate, List.intersperse_cons_cons,
        List.flatten_cons, List.flatten_cons, ih, hc]
      rfl
    · obtain ⟨p, ps, hsplit, hcons⟩ := split_cons_of_ne hc cs
      have hhead : [sep].intercalate ((c :: p) :: ps) = c :: [sep].intercalate (p :: ps) := by
        cases ps with
        | nil => rfl
        | cons q qs => rfl
      rw [hcons, hhead, ← hsplit, ih]

/-- A text without separators is one part. -/
theorem split_of_not_mem {sep : UInt8} : ∀ {s : Str}, sep ∉ s → split sep s = [s]
  | [], _ => rfl
  | c :: cs, h => by
    rw [List.mem_cons, not_or] at h
    rw [split, if_neg (Ne.symm h.1), split_of_not_mem h.2]

/-- No part has a separator. -/
theorem not_mem_of_mem_split {sep : UInt8} : ∀ {s p : Str}, p ∈ split sep s → sep ∉ p
  | [], p, hp => by
    rw [split, List.mem_singleton] at hp
    rw [hp]
    exact List.not_mem_nil
  | c :: cs, p, hp => by
    by_cases hc : c = sep
    · rw [split, if_pos hc, List.mem_cons] at hp
      rcases hp with rfl | hp
      · exact List.not_mem_nil
      · exact not_mem_of_mem_split hp
    · obtain ⟨q, qs, hsplit, hcons⟩ := split_cons_of_ne hc cs
      have hq : ∀ r ∈ q :: qs, sep ∉ r := fun r hr =>
        not_mem_of_mem_split (s := cs) (by rw [hsplit]; exact hr)
      rw [hcons, List.mem_cons] at hp
      rcases hp with rfl | hp
      · rw [List.mem_cons, not_or]
        exact ⟨Ne.symm hc, hq q (List.mem_cons_self ..)⟩
      · exact hq p (List.mem_cons_of_mem _ hp)

/-- The parts are parts of the text. -/
theorem mem_of_mem_split {sep b : UInt8} : ∀ {s p : Str}, p ∈ split sep s → b ∈ p → b ∈ s
  | [], p, hp, hb => by
    rw [split, List.mem_singleton] at hp
    rw [hp] at hb
    cases hb
  | c :: cs, p, hp, hb => by
    by_cases hc : c = sep
    · rw [split, if_pos hc, List.mem_cons] at hp
      rcases hp with rfl | hp
      · cases hb
      · exact List.mem_cons_of_mem _ (mem_of_mem_split hp hb)
    · obtain ⟨q, qs, hsplit, hcons⟩ := split_cons_of_ne hc cs
      have hq : ∀ r ∈ q :: qs, b ∈ r → b ∈ cs := fun r hr hb =>
        mem_of_mem_split (s := cs) (by rw [hsplit]; exact hr) hb
      rw [hcons, List.mem_cons] at hp
      rcases hp with rfl | hp
      · exact List.mem_cons.2 ((List.mem_cons.1 hb).imp_right (hq q (List.mem_cons_self ..)))
      · exact List.mem_cons_of_mem _ (hq p (List.mem_cons_of_mem _ hp) hb)

/-- The first separator of a string splits it in one way only. -/
theorem append_first_sep_inj {sep : UInt8} {a b x y : Str} (ha : sep ∉ a) (hb : sep ∉ b)
    (h : a ++ sep :: x = b ++ sep :: y) : a = b ∧ x = y := by
  have hrev : x.reverse ++ sep :: a.reverse = y.reverse ++ sep :: b.reverse := by
    simpa using congrArg List.reverse h
  obtain ⟨hxy, hab⟩ := append_sep_inj (by rwa [List.mem_reverse]) (by rwa [List.mem_reverse]) hrev
  exact ⟨List.reverse_injective hab, List.reverse_injective hxy⟩

/-- Trimming only drops bytes. -/
theorem mem_of_mem_trimFront {texts : List Str} {b : UInt8} : ∀ {fuel : Nat} {s : Str},
    b ∈ trimFront texts fuel s → b ∈ s
  | 0, _, h => h
  | fuel + 1, s, h => by
    rw [trimFront] at h
    split at h
    · exact h
    · exact List.mem_of_mem_drop (mem_of_mem_trimFront h)

theorem mem_of_mem_trimSpace {s : Str} {b : UInt8} (h : b ∈ trimSpace s) : b ∈ s := by
  rw [trimSpace, List.mem_reverse] at h
  exact mem_of_mem_trimFront (List.mem_reverse.1 (mem_of_mem_trimFront h))

end ByteString
