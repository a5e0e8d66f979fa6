import Mathlib.Data.List.Forall2

/-!
# Proofs — Sequencing

Computations that may be refused, one after another.  A sequence of two succeeds when both do
(`bind_eq_ok_iff`), a function applied along a list succeeds when it does on every item
(`mapM_eq_ok_iff`), and a function or a check along a list fails at the first item that it
refuses (`mapM_eq_error_iff`, `forM_eq_error_iff`).

`FirstRefused` is the first refusal in a list for any relation of items to their refusals.  In lists
that are put one after another it is found list by list (`firstRefused_flatMap_iff`).
-/

namespace StoreTasks

variable {ε α β : Type}

/-- A sequence of two succeeds when both do. -/
theorem bind_eq_ok_iff {x : Except ε α} {f : α → Except ε β} {b : β} :
    x >>= f = .ok b ↔ ∃ a, x = .ok a ∧ f a = .ok b := by
  cases x with
  | error e => simp [bind, Except.bind]
  | ok a => simp [bind, Except.bind]

/-- A sequence of two fails when one of them does, the first before the second. -/
theorem bind_eq_error_iff {x : Except ε α} {f : α → Except ε β} {e : ε} :
    x >>= f = .error e ↔ x = .error e ∨ ∃ a, x = .ok a ∧ f a = .error e := by
  cases x with
  | error e' => simp [bind, Except.bind]
  | ok a => simp [bind, Except.bind]

/-- A sequence of two is the same when the second is the same for every result of the first. -/
theorem bind_congr_of_ok {x : Except ε α} {f g : α → Except ε β}
    (h : ∀ a, x = .ok a → f a = g a) : x >>= f = x >>= g := by
  cases x with
  | error e => rfl
  | ok a => exact h a rfl

theorem map_eq_ok_iff {x : Except ε α} {f : α → β} {b : β} :
    x.map f = .ok b ↔ ∃ a, x = .ok a ∧ f a = b := by
  cases x with
  | error e => simp [Except.map]
  | ok a => simp [Except.map]

theorem map_eq_error_iff {x : Except ε α} {f : α → β} {e : ε} :
    x.map f = .error e ↔ x = .error e := by
  cases x with
  | error e' => simp [Except.map]
  | ok a => simp [Except.map]

theorem mapError_eq_ok_iff {δ : Type} {x : Except ε α} {f : ε → δ} {a : α} :
    x.mapError f = .ok a ↔ x = .ok a := by
  cases x with
  | error e => simp [Except.mapError]
  | ok a => simp [Except.mapError]

/-- A function along a list gives the results of its items, in order. -/
theorem mapM_eq_ok_iff {f : α → Except ε β} {xs : List α} {ys : List β} :
    xs.mapM f = .ok ys ↔ List.Forall₂ (fun x y => f x = .ok y) xs ys := by
  induction xs generalizing ys with
  | nil =>
      rw [List.mapM_nil, List.forall₂_nil_left_iff]
      exact ⟨fun h => (Except.ok.inj h).symm, fun h => h ▸ rfl⟩
  | cons x xs ih =>
      rw [List.mapM_cons, List.forall₂_cons_left_iff, bind_eq_ok_iff]
      refine ⟨?_, ?_⟩
      · rintro ⟨y, hy, h⟩
        obtain ⟨ys', hys, h⟩ := bind_eq_ok_iff.mp h
        exact ⟨y, ys', hy, ih.mp hys, (Except.ok.inj h).symm⟩
      · rintro ⟨y, ys', hy, hys, rfl⟩
        exact ⟨y, hy, bind_eq_ok_iff.mpr ⟨ys', ih.mpr hys, rfl⟩⟩

/-- Every result comes from an item. -/
theorem exists_of_mem_right {R : α → β → Prop} {xs : List α} {ys : List β}
    (h : List.Forall₂ R xs ys) {y : β} (hy : y ∈ ys) : ∃ x ∈ xs, R x y := by
  induction h with
  | nil => cases hy
  | cons hR _ ih =>
      rcases List.mem_cons.mp hy with rfl | hy
      · exact ⟨_, List.mem_cons_self, hR⟩
      · obtain ⟨x, hx, hR⟩ := ih hy
        exact ⟨x, List.mem_cons_of_mem _ hx, hR⟩

/-- Every item has a result. -/
theorem exists_of_mem_left {R : α → β → Prop} {xs : List α} {ys : List β}
    (h : List.Forall₂ R xs ys) {x : α} (hx : x ∈ xs) : ∃ y ∈ ys, R x y :=
  exists_of_mem_right (List.Forall₂.flip h) hx

/-- The result at a position comes from the item at that position. -/
theorem exists_getElem?_of_forall₂ {R : α → β → Prop} {xs : List α} {ys : List β}
    (h : List.Forall₂ R xs ys) {i : Nat} {x : α} (hx : xs[i]? = some x) :
    ∃ y, ys[i]? = some y ∧ R x y := by
  induction h generalizing i with
  | nil => cases hx
  | cons hR _ ih =>
      cases i with
      | zero =>
          cases hx
          exact ⟨_, rfl, hR⟩
      | succ i => exact ih hx

/-- A relation that holds item by item may be replaced by one that follows from it on the items. -/
theorem forall₂_imp_of_mem {R S : α → β → Prop} {xs : List α} {ys : List β}
    (h : List.Forall₂ R xs ys) (imp : ∀ x ∈ xs, ∀ y, R x y → S x y) : List.Forall₂ S xs ys := by
  induction h with
  | nil => exact .nil
  | cons hR _ ih =>
      exact .cons (imp _ List.mem_cons_self _ hR)
        (ih fun x hx => imp x (List.mem_cons_of_mem _ hx))

/-- What is the same for each item and its result is the same for the lists. -/
theorem map_eq_map_of_forall₂ {γ : Type} {R : α → β → Prop} {f : α → γ} {g : β → γ} {xs : List α}
    {ys : List β} (h : List.Forall₂ R xs ys) (same : ∀ x y, R x y → g y = f x) :
    ys.map g = xs.map f := by
  induction h with
  | nil => rfl
  | cons hR _ ih => rw [List.map_cons, List.map_cons, same _ _ hR, ih]

/-- When every item has a result, the list has results. -/
theorem exists_forall₂ {R : α → β → Prop} {xs : List α} (h : ∀ x ∈ xs, ∃ y, R x y) :
    ∃ ys, List.Forall₂ R xs ys := by
  induction xs with
  | nil => exact ⟨[], .nil⟩
  | cons x xs ih =>
      obtain ⟨y, hy⟩ := h x List.mem_cons_self
      obtain ⟨ys, hys⟩ := ih fun x' hx' => h x' (List.mem_cons_of_mem x hx')
      exact ⟨y :: ys, .cons hy hys⟩

/-- A function along a list succeeds exactly when it does on every item. -/
theorem exists_mapM_iff {f : α → Except ε β} {xs : List α} :
    (∃ ys, xs.mapM f = .ok ys) ↔ ∀ x ∈ xs, ∃ y, f x = .ok y := by
  simp only [mapM_eq_ok_iff]
  refine ⟨?_, exists_forall₂⟩
  rintro ⟨ys, hys⟩ x hx
  obtain ⟨y, -, hy⟩ := exists_of_mem_left hys hx
  exact ⟨y, hy⟩

theorem mapM_eq_ok_map {f : α → Except ε β} {g : α → β} {xs : List α}
    (h : ∀ x ∈ xs, f x = .ok (g x)) : xs.mapM f = .ok (xs.map g) :=
  mapM_eq_ok_iff.mpr (List.forall₂_map_right_iff.mpr (List.forall₂_same.mpr h))

theorem mapM_congr {f g : α → Except ε β} {xs : List α} (h : ∀ x ∈ xs, f x = g x) :
    xs.mapM f = xs.mapM g := by
  induction xs with
  | nil => rfl
  | cons x xs ih =>
      rw [List.mapM_cons, List.mapM_cons, h x List.mem_cons_self,
        ih fun y hy => h y (List.mem_cons_of_mem x hy)]

/-- A function along lists that are put one after another goes along each of them in turn. -/
theorem mapM_flatMap {γ : Type} {f : α → List β} {g : β → Except ε γ} (xs : List α) :
    (xs.flatMap f).mapM g = (xs.mapM fun x => (f x).mapM g).map List.flatten := by
  induction xs with
  | nil => rfl
  | cons x xs ih =>
      rw [List.flatMap_cons, List.mapM_append, List.mapM_cons, ih]
      cases (f x).mapM g with
      | error e => rfl
      | ok ys =>
          cases xs.mapM fun x => (f x).mapM g with
          | error e => rfl
          | ok yss => rfl

/-- A function along a list fails as it does on the first item that it refuses. -/
theorem mapM_eq_error_iff {f : α → Except ε β} {xs : List α} {e : ε} :
    xs.mapM f = .error e ↔
      ∃ before x after, xs = before ++ x :: after ∧ (∀ y ∈ before, ∃ z, f y = .ok z) ∧
        f x = .error e := by
  induction xs with
  | nil => simp [pure, Except.pure]
  | cons x xs ih =>
      have hrest : ∀ y, (xs.mapM f >>= fun ys => pure (y :: ys)) = .error e ↔
          xs.mapM f = .error e := by
        intro y
        simp [bind_eq_error_iff, pure, Except.pure]
      rw [List.mapM_cons, bind_eq_error_iff]
      simp only [hrest, ih]
      refine ⟨?_, ?_⟩
      · rintro (hx | ⟨y, hy, before, x', after, rfl, hok, hx'⟩)
        · exact ⟨[], x, xs, rfl, List.forall_mem_nil _, hx⟩
        · exact ⟨x :: before, x', after, rfl, List.forall_mem_cons.mpr ⟨⟨y, hy⟩, hok⟩, hx'⟩
      · rintro ⟨before, x', after, heq, hok, hx'⟩
        cases before with
        | nil =>
            cases heq
            exact .inl hx'
        | cons first before =>
            cases heq
            obtain ⟨⟨y, hy⟩, hok⟩ := List.forall_mem_cons.mp hok
            exact .inr ⟨y, hy, before, x', after, rfl, hok, hx'⟩

theorem forM_eq_ok_iff {f : α → Except ε Unit} {xs : List α} {u : Unit} :
    forM xs f = .ok u ↔ ∀ x ∈ xs, f x = .ok () := by
  induction xs with
  | nil => simp [pure, Except.pure]
  | cons x xs ih =>
      rw [List.forM_cons, bind_eq_ok_iff, List.forall_mem_cons, ← ih]
      exact ⟨fun ⟨_, hx, h⟩ => ⟨hx, h⟩, fun ⟨hx, h⟩ => ⟨(), hx, h⟩⟩

/-- A check along a list fails as it does at the first item that it refuses. -/
theorem forM_eq_error_iff {f : α → Except ε Unit} {xs : List α} {e : ε} :
    forM xs f = .error e ↔
      ∃ before x after, xs = before ++ x :: after ∧ (∀ y ∈ before, f y = .ok ()) ∧
        f x = .error e := by
  induction xs with
  | nil => simp [pure, Except.pure]
  | cons x xs ih =>
      rw [List.forM_cons]
      cases hx : f x with
      | error e' =>
          refine ⟨?_, ?_⟩
          · intro h
            exact ⟨[], x, xs, rfl, by simp, hx.trans h⟩
          · rintro ⟨before, y, after, heq, hok, hy⟩
            cases before with
            | nil => cases heq; exact hx.symm.trans hy
            | cons z before =>
                cases heq
                exact absurd ((hok _ List.mem_cons_self).symm.trans hx) nofun
      | ok u =>
          refine Iff.trans ih ⟨?_, ?_⟩
          · rintro ⟨before, y, after, rfl, hok, hy⟩
            exact ⟨x :: before, y, after, rfl, List.forall_mem_cons.mpr ⟨hx, hok⟩, hy⟩
          · rintro ⟨before, y, after, heq, hok, hy⟩
            cases before with
            | nil => cases heq; exact absurd (hx.symm.trans hy) nofun
            | cons z before =>
                cases heq
                exact ⟨before, y, after, rfl, (List.forall_mem_cons.mp hok).2, hy⟩

/-! ### The first refusal -/

theorem exists_ok_iff {x : Except ε α} : (∃ a, x = .ok a) ↔ ∀ e, x ≠ .error e := by
  cases x with
  | error e => simp
  | ok a => simp

/-- The first item of a list that is refused is refused for `e`. -/
inductive FirstRefused (Refused : α → ε → Prop) : List α → ε → Prop where
  | here {x : α} {xs : List α} {e : ε} (refused : Refused x e) : FirstRefused Refused (x :: xs) e
  | later {x : α} {xs : List α} {e : ε} (accepted : ∀ e, ¬ Refused x e)
      (rest : FirstRefused Refused xs e) : FirstRefused Refused (x :: xs) e

section FirstRefused

variable {Refused : α → ε → Prop}

theorem not_firstRefused_nil {e : ε} : ¬ FirstRefused Refused [] e := nofun

theorem firstRefused_cons_iff {x : α} {xs : List α} {e : ε} :
    FirstRefused Refused (x :: xs) e ↔
      Refused x e ∨ (∀ e, ¬ Refused x e) ∧ FirstRefused Refused xs e := by
  refine ⟨?_, ?_⟩
  · rintro (⟨hx⟩ | ⟨hx, hxs⟩)
    · exact .inl hx
    · exact .inr ⟨hx, hxs⟩
  · rintro (hx | ⟨hx, hxs⟩)
    · exact .here hx
    · exact .later hx hxs

/-- The first refusal is that of an item, where no item before it is refused. -/
theorem firstRefused_iff {xs : List α} {e : ε} :
    FirstRefused Refused xs e ↔
      ∃ before x after, xs = before ++ x :: after ∧ (∀ y ∈ before, ∀ e, ¬ Refused y e) ∧
        Refused x e := by
  refine ⟨fun h => ?_, ?_⟩
  · induction h with
    | here hx => exact ⟨[], _, _, rfl, List.forall_mem_nil _, hx⟩
    | later hx _ ih =>
        obtain ⟨before, y, after, rfl, hbefore, hy⟩ := ih
        exact ⟨_ :: before, y, after, rfl, List.forall_mem_cons.mpr ⟨hx, hbefore⟩, hy⟩
  · rintro ⟨before, x, after, rfl, hbefore, hx⟩
    induction before with
    | nil => exact .here hx
    | cons y before ih =>
        obtain ⟨hy, hbefore⟩ := List.forall_mem_cons.mp hbefore
        exact .later hy (ih hbefore)

/-- Where an item is refused, one of them is the first. -/
theorem forall_not_firstRefused_iff {xs : List α} :
    (∀ e, ¬ FirstRefused Refused xs e) ↔ ∀ x ∈ xs, ∀ e, ¬ Refused x e := by
  induction xs with
  | nil => exact ⟨fun _ => List.forall_mem_nil _, fun _ _ => not_firstRefused_nil⟩
  | cons x xs ih =>
      rw [List.forall_mem_cons, ← ih]
      simp only [firstRefused_cons_iff, not_or, not_and]
      exact ⟨fun h => ⟨fun e => (h e).1, fun e => (h e).2 fun e => (h e).1⟩,
        fun h e => ⟨h.1 e, fun _ => h.2 e⟩⟩

/-- Of two lists, the second is refused only if nothing in the first is. -/
theorem firstRefused_append_iff {xs ys : List α} {e : ε} :
    FirstRefused Refused (xs ++ ys) e ↔
      FirstRefused Refused xs e ∨
        (∀ e, ¬ FirstRefused Refused xs e) ∧ FirstRefused Refused ys e := by
  induction xs with
  | nil => exact ⟨fun h => .inr ⟨fun _ => not_firstRefused_nil, h⟩, fun h => h.elim nofun And.right⟩
  | cons x xs ih =>
      simp only [List.cons_append, firstRefused_cons_iff, ih, not_or, not_and, forall_and]
      tauto

/-- The first refusal in lists put one after another is that of the first list that has one. -/
theorem firstRefused_flatMap_iff {f : β → List α} {xs : List β} {e : ε} :
    FirstRefused Refused (xs.flatMap f) e ↔
      FirstRefused (fun x => FirstRefused Refused (f x)) xs e := by
  induction xs with
  | nil => exact iff_of_false not_firstRefused_nil not_firstRefused_nil
  | cons x xs ih => rw [List.flatMap_cons, firstRefused_append_iff, firstRefused_cons_iff, ih]

theorem firstRefused_congr {Other : α → ε → Prop} {xs : List α} {e : ε}
    (h : ∀ x ∈ xs, ∀ e, Refused x e ↔ Other x e) :
    FirstRefused Refused xs e ↔ FirstRefused Other xs e := by
  induction xs with
  | nil => exact iff_of_false not_firstRefused_nil not_firstRefused_nil
  | cons x xs ih =>
      obtain ⟨hx, hxs⟩ := List.forall_mem_cons.mp h
      simp only [firstRefused_cons_iff, hx, ih hxs]

end FirstRefused

/-- A function along a list fails with the first refusal. -/
theorem mapM_eq_error_iff_firstRefused {f : α → Except ε β} {xs : List α} {e : ε} :
    xs.mapM f = .error e ↔ FirstRefused (fun x e => f x = .error e) xs e := by
  simp only [mapM_eq_error_iff, firstRefused_iff, exists_ok_iff, ne_eq]

end StoreTasks
