import Mathlib.Data.List.Forall2
import Mathlib.Data.List.Perm.Basic

set_option autoImplicit false

/-! # Computations that can fail

Taking apart a computation by its outcome, and going through a list element by element: the first
element without a result is the one that is to blame, and a list that was written element by element
is read back so. -/

namespace JavaAtlas.Fallible

variable {ε α β : Type}

theorem bind_eq_ok_iff {x : Except ε α} {f : α → Except ε β} {b : β} :
    x >>= f = .ok b ↔ ∃ a, x = .ok a ∧ f a = .ok b := by
  cases x with
  | ok a =>
    constructor
    · intro h
      exact ⟨a, rfl, h⟩
    · rintro ⟨_, hok, h⟩
      obtain rfl := Except.ok.inj hok
      exact h
  | error e =>
    constructor
    · intro h
      exact absurd h (by simp [bind, Except.bind])
    · rintro ⟨_, hok, _⟩
      exact absurd hok (by simp)

theorem exists_bind_iff {x : Except ε α} {f : α → Except ε β} :
    (∃ b, x >>= f = .ok b) ↔ ∃ a, x = .ok a ∧ ∃ b, f a = .ok b := by
  constructor
  · rintro ⟨b, h⟩
    obtain ⟨a, hok, hb⟩ := bind_eq_ok_iff.1 h
    exact ⟨a, hok, b, hb⟩
  · rintro ⟨a, hok, b, hb⟩
    exact ⟨b, bind_eq_ok_iff.2 ⟨a, hok, hb⟩⟩

theorem bind_eq_error_iff {x : Except ε α} {f : α → Except ε β} {e : ε} :
    x >>= f = .error e ↔ x = .error e ∨ ∃ a, x = .ok a ∧ f a = .error e := by
  cases x with
  | ok a => simp [bind, Except.bind]
  | error e' => simp [bind, Except.bind]

theorem map_eq_ok_iff {x : Except ε α} {f : α → β} {b : β} :
    x.map f = .ok b ↔ ∃ a, x = .ok a ∧ f a = b := by
  cases x <;> simp [Except.map]

theorem exists_map_iff {x : Except ε α} {f : α → β} :
    (∃ b, x.map f = .ok b) ↔ ∃ a, x = .ok a := by
  cases x <;> simp [Except.map]

theorem map_eq_error_iff {x : Except ε α} {f : α → β} {e : ε} :
    x.map f = .error e ↔ x = .error e := by
  cases x <;> simp [Except.map]

/-- Computations that have each other's results both fail or have the same result. -/
theorem errors_or_agree {x y : Except ε α} (hxy : ∀ {a}, x = .ok a → y = .ok a)
    (hyx : ∀ {a}, y = .ok a → x = .ok a) :
    (∃ e, x = .error e) ∧ (∃ e, y = .error e) ∨ ∃ a, x = .ok a ∧ y = .ok a := by
  cases x with
  | ok a => exact .inr ⟨a, rfl, hxy rfl⟩
  | error e =>
    cases y with
    | ok a => cases hyx rfl
    | error e' => exact .inl ⟨⟨e, rfl⟩, e', rfl⟩

/-! ## Lists -/

/-- A list has a result if all its elements have one. -/
theorem exists_mapM_iff {f : α → Except ε β} {l : List α} :
    (∃ bs, l.mapM f = .ok bs) ↔ ∀ a ∈ l, ∃ b, f a = .ok b := by
  induction l with
  | nil => simp [pure, Except.pure]
  | cons a rest ih =>
    rw [List.mapM_cons, exists_bind_iff, List.forall_mem_cons, ← ih]
    constructor
    · rintro ⟨b, hb, bs, hbs⟩
      obtain ⟨cs, hcs, -⟩ := bind_eq_ok_iff.1 hbs
      exact ⟨⟨b, hb⟩, cs, hcs⟩
    · rintro ⟨⟨b, hb⟩, bs, hbs⟩
      exact ⟨b, hb, b :: bs, bind_eq_ok_iff.2 ⟨bs, hbs, rfl⟩⟩

/-- The results of a list are those of its elements, in order. -/
theorem mapM_eq_ok_iff {f : α → Except ε β} {l : List α} {bs : List β} :
    l.mapM f = .ok bs ↔ List.Forall₂ (fun a b => f a = .ok b) l bs := by
  induction l generalizing bs with
  | nil => simp [pure, Except.pure, eq_comm]
  | cons a rest ih =>
    rw [List.mapM_cons, bind_eq_ok_iff, List.forall₂_cons_left_iff]
    constructor
    · rintro ⟨b, hb, hrest⟩
      obtain ⟨cs, hcs, hpure⟩ := bind_eq_ok_iff.1 hrest
      exact ⟨b, cs, hb, ih.1 hcs, (Except.ok.inj hpure).symm⟩
    · rintro ⟨b, cs, hb, hcs, rfl⟩
      exact ⟨b, hb, bind_eq_ok_iff.2 ⟨cs, ih.2 hcs, rfl⟩⟩

/-- A list fails because of one of its elements. -/
theorem exists_of_mapM_eq_error {f : α → Except ε β} {l : List α} {e : ε}
    (h : l.mapM f = .error e) : ∃ a ∈ l, f a = .error e := by
  induction l with
  | nil => exact absurd h (by simp [pure, Except.pure])
  | cons a rest ih =>
    rw [List.mapM_cons] at h
    rcases bind_eq_error_iff.1 h with ha | ⟨b, -, hrest⟩
    · exact ⟨a, List.mem_cons_self, ha⟩
    · rcases bind_eq_error_iff.1 hrest with hrest | ⟨bs, -, hpure⟩
      · obtain ⟨c, hc, he⟩ := ih hrest
        exact ⟨c, List.mem_cons_of_mem _ hc, he⟩
      · exact absurd hpure (by simp [pure, Except.pure])

/-- Each result is that of an element. -/
theorem exists_of_mem_mapM {f : α → Except ε β} {l : List α} {bs : List β}
    (h : l.mapM f = .ok bs) {b : β} (hb : b ∈ bs) : ∃ a ∈ l, f a = .ok b := by
  have hresults := mapM_eq_ok_iff.1 h
  clear h
  induction hresults with
  | nil => exact absurd hb List.not_mem_nil
  | @cons a _ l _ ha _ ih =>
    rcases List.mem_cons.1 hb with rfl | hb
    · exact ⟨a, List.mem_cons_self, ha⟩
    · obtain ⟨c, hc, hresult⟩ := ih hb
      exact ⟨c, List.mem_cons_of_mem _ hc, hresult⟩

/-- If the elements come in another order, so do their results. -/
theorem exists_mapM_of_perm {f : α → Except ε β} {l l' : List α} (h : l.Perm l') {bs : List β}
    (hbs : l.mapM f = .ok bs) : ∃ bs', l'.mapM f = .ok bs' ∧ bs.Perm bs' := by
  obtain ⟨bs', hresults, hperm⟩ := List.perm_comp_forall₂ h.symm (mapM_eq_ok_iff.1 hbs)
  exact ⟨bs', mapM_eq_ok_iff.2 hresults, hperm.symm⟩

theorem mapM_map_ok {read : β → Except ε α} {write : α → β} (h : ∀ a, read (write a) = .ok a)
    (l : List α) : (l.map write).mapM read = .ok l := by
  induction l with
  | nil => rfl
  | cons a rest ih =>
    rw [List.map_cons, List.mapM_cons, h, ih]
    rfl

end JavaAtlas.Fallible
