import Mathlib.Algebra.Order.Group.Multiset
import Mathlib.Data.Multiset.Bind

namespace Interleaving

/-!
# Pools of tasks

The parties of an interleaving model sit in a list, so that an action can name the one
that moves by its position; what a property needs to know about the others is only how
much they hold *together*.  `exists_coe_set` splits such a list, as a multiset, into the
party that moves and the rest, the rest being the same before and after the move.  Every
measure that is a sum over the parties then changes by the mover's own share alone
(`holdings_set`).
-/

variable {α β : Type*}

/-- Replacing the entry at a position leaves the same rest around it. -/
theorem exists_coe_set {l : List α} {i : ℕ} {a : α} (h : l[i]? = some a) :
    ∃ rest : Multiset α, (l : Multiset α) = a ::ₘ rest ∧
      ∀ b, (↑(l.set i b) : Multiset α) = b ::ₘ rest := by
  obtain ⟨hi, rfl⟩ := List.getElem?_eq_some_iff.mp h
  refine ⟨↑(l.take i ++ l.drop (i + 1)), ?_, fun b => ?_⟩
  · rw [Multiset.cons_coe, Multiset.coe_eq_coe]
    conv_lhs => rw [← List.take_append_drop i l, List.drop_eq_getElem_cons hi]
    exact List.perm_middle
  · rw [Multiset.cons_coe, Multiset.coe_eq_coe, List.set_eq_take_append_cons_drop, if_pos hi]
    exact List.perm_middle

/-- What all parties hold together, when `f` is what one party holds. -/
def holdings (f : α → Multiset β) (l : List α) : Multiset β := (l : Multiset α).bind f

@[simp] theorem holdings_nil (f : α → Multiset β) : holdings f [] = 0 := rfl

@[simp] theorem holdings_append (f : α → Multiset β) (l l' : List α) :
    holdings f (l ++ l') = holdings f l + holdings f l' := by
  rw [holdings, ← Multiset.coe_add, Multiset.add_bind]; rfl

@[simp] theorem holdings_singleton (f : α → Multiset β) (a : α) : holdings f [a] = f a :=
  Multiset.singleton_bind a f

/-- Parties that hold nothing hold nothing together. -/
theorem holdings_eq_zero {f : α → Multiset β} {l : List α} (h : ∀ a ∈ l, f a = 0) :
    holdings f l = 0 := by
  rw [holdings, ← Multiset.bind_zero (l : Multiset α)]
  exact Multiset.bind_congr (fun a ha => h a (Multiset.mem_coe.mp ha))

theorem mem_holdings {f : α → Multiset β} {l : List α} {b : β} :
    b ∈ holdings f l ↔ ∃ a ∈ l, b ∈ f a := by
  rw [holdings, Multiset.mem_bind]
  rfl

/-- A move of one party changes what is held together by that party's share. -/
theorem holdings_set {f : α → Multiset β} {l : List α} {i : ℕ} {a : α} (h : l[i]? = some a) :
    ∃ rest, holdings f l = f a + rest ∧ ∀ b, holdings f (l.set i b) = f b + rest := by
  obtain ⟨rest, hl, hset⟩ := exists_coe_set h
  refine ⟨rest.bind f, ?_, fun b => ?_⟩
  · rw [holdings, hl, Multiset.cons_bind]
  · rw [holdings, hset b, Multiset.cons_bind]

/-- What two parties hold, apart from the others. -/
theorem holdings_pair {f : α → Multiset β} {l : List α} {i j : ℕ} {a b : α} (hi : l[i]? = some a)
    (hj : l[j]? = some b) (hij : i ≠ j) : ∃ rest, holdings f l = f a + (f b + rest) := by
  induction l generalizing i j with
  | nil => cases hi
  | cons c l ih =>
    have hcons : holdings f (c :: l) = f c + holdings f l := by
      rw [← List.singleton_append, holdings_append, holdings_singleton]
    cases i with
    | zero =>
      cases j with
      | zero => exact absurd rfl hij
      | succ j =>
        cases hi
        obtain ⟨rest, hrest, -⟩ := holdings_set (f := f) (l := l) (i := j) hj
        exact ⟨rest, by rw [hcons, hrest]⟩
    | succ i =>
      cases j with
      | zero =>
        cases hj
        obtain ⟨rest, hrest, -⟩ := holdings_set (f := f) (l := l) (i := i) hi
        exact ⟨rest, by rw [hcons, hrest, add_left_comm]⟩
      | succ j =>
        obtain ⟨rest, hrest⟩ := ih hi hj fun he => hij (congrArg Nat.succ he)
        exact ⟨f c + rest, by rw [hcons, hrest]; ac_rfl⟩

/-- A move of one party changes the number of those with a property by its own share. -/
theorem countP_set {p : α → Bool} {l : List α} {i : ℕ} {a : α} (h : l[i]? = some a) :
    ∃ n, l.countP p = (p a).toNat + n ∧ ∀ b, (l.set i b).countP p = (p b).toNat + n := by
  obtain ⟨rest, hl, hset⟩ := exists_coe_set h
  have hcons : ∀ b, (b ::ₘ rest).countP (p · = true) = (p b).toNat + rest.countP (p · = true) := by
    intro b
    rw [Multiset.countP_cons, add_comm]
    cases p b <;> rfl
  refine ⟨rest.countP (p · = true), ?_, fun b => ?_⟩
  · rw [← hcons, ← hl, Multiset.coe_countP]
    simp only [Bool.decide_eq_true]
  · rw [← hcons, ← hset b, Multiset.coe_countP]
    simp only [Bool.decide_eq_true]

/-- What a list has with one more party at its end it had before, or it is the new one. -/
theorem getElem?_concat_cases {l : List α} {i : ℕ} {a b : α} (h : (l ++ [a])[i]? = some b) :
    l[i]? = some b ∨ (i = l.length ∧ b = a) := by
  rcases Nat.lt_trichotomy i l.length with hlt | heq | hgt
  · left
    rwa [List.getElem?_append_left hlt] at h
  · right
    rw [heq, List.getElem?_concat_length] at h
    exact ⟨heq, (Option.some.inj h).symm⟩
  · rw [List.getElem?_eq_none (by rw [List.length_append]; exact hgt)] at h
    cases h

/-! ### Weights -/

variable {M : Type*} [AddCommMonoid M]

/-- The sum of a weight over all that is held. -/
def tally (w : β → M) (held : Multiset β) : M := (held.map w).sum

@[simp] theorem tally_zero (w : β → M) : tally w 0 = 0 := rfl

@[simp] theorem tally_cons (w : β → M) (b : β) (held : Multiset β) :
    tally w (b ::ₘ held) = w b + tally w held := by
  rw [tally, Multiset.map_cons, Multiset.sum_cons]; rfl

@[simp] theorem tally_singleton (w : β → M) (b : β) : tally w {b} = w b := by
  rw [tally, Multiset.map_singleton, Multiset.sum_singleton]

@[simp] theorem tally_add (w : β → M) (held held' : Multiset β) :
    tally w (held + held') = tally w held + tally w held' := by
  rw [tally, Multiset.map_add, Multiset.sum_add]; rfl

/-- What weighs nothing weighs nothing together. -/
theorem tally_eq_zero {w : β → M} {held : Multiset β} (h : ∀ b ∈ held, w b = 0) :
    tally w held = 0 := by
  refine Multiset.sum_eq_zero fun x hx => ?_
  obtain ⟨b, hb, rfl⟩ := Multiset.mem_map.mp hx
  exact h b hb

theorem holdings_cons (f : α → Multiset β) (a : α) (l : List α) :
    holdings f (a :: l) = f a + holdings f l := by
  rw [← List.singleton_append, holdings_append, holdings_singleton]

/-- A weight that is one for the parties with a property and zero for the others counts them. -/
theorem tally_holdings {f : α → Multiset β} {w : β → ℕ} {p : α → Bool}
    (h : ∀ a, tally w (f a) = (p a).toNat) (l : List α) : tally w (holdings f l) = l.countP p := by
  induction l with
  | nil => rfl
  | cons a l ih =>
    rw [holdings_cons, tally_add, h, ih, List.countP_cons, add_comm]
    cases p a <;> rfl

/-- If at most one party has a property, two that have it are the same. -/
theorem eq_of_countP_le_one {p : α → Bool} {l : List α} (h : l.countP p ≤ 1) {i j : ℕ} {a b : α}
    (hi : l[i]? = some a) (hj : l[j]? = some b) (ha : p a = true) (hb : p b = true) : i = j := by
  induction l generalizing i j with
  | nil => cases hi
  | cons c l ih =>
    have hpos : ∀ {k : ℕ} {x : α}, l[k]? = some x → p x = true → 0 < l.countP p :=
      fun hk hx => List.countP_pos_iff.mpr ⟨_, List.mem_of_getElem? hk, hx⟩
    rw [List.countP_cons] at h
    cases i with
    | zero =>
      cases j with
      | zero => rfl
      | succ j =>
        cases hi
        rw [if_pos ha] at h
        exact absurd (hpos hj hb) (by omega)
    | succ i =>
      cases j with
      | zero =>
        cases hj
        rw [if_pos hb] at h
        exact absurd (hpos hi ha) (by omega)
      | succ j => exact congrArg Nat.succ (ih (by omega) hi hj)

end Interleaving
